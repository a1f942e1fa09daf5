import OpenIscsi.SendTargets
import OpenIscsi.Lib.Tokens

/-!
# One target of a SendTargets response

A response is a list of strings: a `TargetName=` string starts a target, and the
strings up to the next one belong to it. `add_target_record` is shown to add the
portals of one target, whatever it writes into the buffer on the way.
-/

namespace SendTargetsRecord

open CString Tokens SendTargets List

/-! ## The portals of a target -/

structure Target where
  name : List UInt8
  lines : List (List UInt8)
  deriving DecidableEq, Repr

def isTargetName (s : List UInt8) : Bool := (ascii "TargetName=").isPrefixOf s

def isTargetAddress (s : List UInt8) : Bool := (ascii "TargetAddress=").isPrefixOf s

def targets (strings : List (List UInt8)) : List Target :=
  (sections isTargetName strings).map (fun t => ⟨t.1.drop 11, t.2⟩)

def splitOff (c : UInt8) (s : List UInt8) : List UInt8 × Option (List UInt8) :=
  match splitLast c s with
  | some (before, after) => (before, some after)
  | none => (s, none)

structure Address where
  address : List UInt8
  port : Option (List UInt8)
  tag : Option (List UInt8)
  deriving DecidableEq, Repr

/-- The parts of a `TargetAddress=` string. -/
def parseAddress (s : List UInt8) : Address :=
  let tagged := splitOff 44 s
  let ported := splitOff 58 tagged.1
  let address := ported.1.drop 14
  { address := if address.head? = some 91 then (splitOff 93 ported.1).1.drop 15 else address
    port := ported.2
    tag := tagged.2 }

/-- The record of one `TargetAddress=` string. -/
def addressRec (drec : DiscoveryRec) (name s : List UInt8) : NodeRec :=
  portalRec drec name (parseAddress s).address (parseAddress s).port (parseAddress s).tag

/-- The record of a target without any string behind its name. -/
def defaultRec (drec : DiscoveryRec) (name : List UInt8) : NodeRec :=
  portalRec drec name (cstr drec.address) (some (printInt drec.port)) none

def portals (drec : DiscoveryRec) (t : Target) : List NodeRec :=
  if t.lines = [] then [defaultRec drec t.name]
  else (t.lines.filter isTargetAddress).map (addressRec drec t.name)

structure Accepted (env : Env) (drec : DiscoveryRec) (t : Target) : Prop where
  fits : t.name.length ≤ targetNameMaxlen
  resolves : ∀ s ∈ t.lines, isTargetAddress s = true →
    env.resolves (parseAddress s).address (parseAddress s).port = true
  fallback : t.lines = [] →
    cstr drec.address ≠ [] ∧ env.resolves (cstr drec.address) (some (printInt drec.port)) = true

/-- The address of a string is asked from the resolver. -/
def lineResolves (env : Env) (s : List UInt8) : Bool :=
  env.resolves (parseAddress s).address (parseAddress s).port

/-- The records of the strings behind a name, up to the first address that does not
resolve, and whether all do. -/
def addedLines (env : Env) (drec : DiscoveryRec) (name : List UInt8) :
    List (List UInt8) → List NodeRec × Bool
  | [] => ([], true)
  | s :: lines =>
    if isTargetAddress s then
      if lineResolves env s then
        (addressRec drec name s :: (addedLines env drec name lines).1,
          (addedLines env drec name lines).2)
      else ([], false)
    else addedLines env drec name lines

/-- The records a target adds before it fails, and whether it does not fail. -/
def added (env : Env) (drec : DiscoveryRec) (t : Target) : List NodeRec × Bool :=
  if targetNameMaxlen < t.name.length then ([], false)
  else if t.lines = [] then
    if cstr drec.address ≠ [] ∧ env.resolves (cstr drec.address) (some (printInt drec.port)) = true then
      ([defaultRec drec t.name], true)
    else ([], false)
  else addedLines env drec t.name t.lines

section Lines

variable (env : Env) (drec : DiscoveryRec) (name : List UInt8) {lines : List (List UInt8)}

/-- The addresses up to the first one that does not resolve. -/
theorem addedLines_eq (lines : List (List UInt8)) : addedLines env drec name lines =
    (((lines.filter isTargetAddress).takeWhile (lineResolves env)).map (addressRec drec name),
      (lines.filter isTargetAddress).all (lineResolves env)) := by
  induction lines with
  | nil => rfl
  | cons s lines ih =>
    rw [addedLines, ih]
    by_cases hs : isTargetAddress s = true
    · by_cases hr : lineResolves env s = true <;> simp [hs, hr]
    · simp [hs]

theorem addedLines_append (lines' : List (List UInt8))
    (h : (addedLines env drec name lines).2 = true) :
    addedLines env drec name (lines ++ lines') =
      ((addedLines env drec name lines).1 ++ (addedLines env drec name lines').1,
        (addedLines env drec name lines').2) := by
  simp only [addedLines_eq] at h
  have hall := all_eq_true.mp h
  simp only [addedLines_eq, filter_append, takeWhile_append_of_pos hall,
    takeWhile_eq_self_iff.mpr hall, map_append, all_append, h, Bool.true_and]

theorem addedLines_fail (lines' : List (List UInt8))
    (h : (addedLines env drec name lines).2 = false) :
    addedLines env drec name (lines ++ lines') = addedLines env drec name lines := by
  simp only [addedLines_eq] at h
  have hne : ((lines.filter isTargetAddress).takeWhile (lineResolves env)).length ≠
      (lines.filter isTargetAddress).length := by
    intro hlen
    have hself := (List.takeWhile_prefix (lineResolves env)).eq_of_length hlen
    rw [all_eq_true.mpr (takeWhile_eq_self_iff.mp hself)] at h
    cases h
  simp only [addedLines_eq, filter_append, takeWhile_append, if_neg hne, all_append,
    h, Bool.false_and]

theorem addedLines_iff : (addedLines env drec name lines).2 = true ↔
    ∀ s ∈ lines, isTargetAddress s = true → lineResolves env s = true := by
  simp only [addedLines_eq, all_eq_true, mem_filter, and_imp]

end Lines

theorem addedLines_all {env : Env} {drec : DiscoveryRec} {name : List UInt8}
    {lines : List (List UInt8)} (h : (addedLines env drec name lines).2 = true) :
    (addedLines env drec name lines).1 =
      (lines.filter isTargetAddress).map (addressRec drec name) := by
  rw [addedLines_eq] at h ⊢
  rw [takeWhile_eq_self_iff.mpr (all_eq_true.mp h)]

/-- A target fails unless it is accepted. -/
theorem added_iff (env : Env) (drec : DiscoveryRec) (t : Target) :
    (added env drec t).2 = true ↔ Accepted env drec t := by
  rw [added]
  by_cases hfits : targetNameMaxlen < t.name.length
  · rw [if_pos hfits]
    exact ⟨fun h => (by cases h), fun h => absurd h.fits (by omega)⟩
  rw [if_neg hfits]
  by_cases hlines : t.lines = []
  · rw [if_pos hlines]
    by_cases hdef : cstr drec.address ≠ [] ∧
        env.resolves (cstr drec.address) (some (printInt drec.port)) = true
    · rw [if_pos hdef]
      exact ⟨fun _ => ⟨by omega, by simp [hlines], fun _ => hdef⟩, fun _ => rfl⟩
    · rw [if_neg hdef]
      exact ⟨fun h => (by cases h), fun h => absurd (h.fallback hlines) hdef⟩
  · rw [if_neg hlines, addedLines_iff]
    exact ⟨fun h => ⟨by omega, h, fun h0 => absurd h0 hlines⟩, fun h => h.resolves⟩

instance (env : Env) (drec : DiscoveryRec) (t : Target) : Decidable (Accepted env drec t) :=
  decidable_of_iff _ (added_iff env drec t)

/-- An accepted target adds its portals. -/
theorem added_accepted {env : Env} {drec : DiscoveryRec} {t : Target} (h : Accepted env drec t) :
    (added env drec t).1 = portals drec t := by
  have hok := (added_iff env drec t).mpr h
  have hfits : ¬ targetNameMaxlen < t.name.length := by
    have := h.fits
    omega
  rw [added, if_neg hfits] at hok ⊢
  rw [portals]
  by_cases hlines : t.lines = []
  · rw [if_pos hlines, if_pos (h.fallback hlines), if_pos hlines]
  · rw [if_neg hlines] at hok ⊢
    rw [if_neg hlines, addedLines_all hok]

/-! ## Reading the buffer -/

theorem byteAt_append (pre rest : List UInt8) :
    byteAt (pre ++ rest) pre.length = rest.headD 0 := by
  cases rest <;> simp [byteAt]

theorem stringAt_append (pre rest : List UInt8) : stringAt (pre ++ rest) pre.length = cstr rest := by
  rw [stringAt, drop_left']
  rfl

theorem stringAt_string (pre s post : List UInt8) (hs : NulFree s) :
    stringAt (pre ++ (s ++ 0 :: post)) pre.length = s := by
  rw [stringAt_append, cstr_append_nul s post hs]

/-- A loop over bytes stops at the first one that ends it, or at its limit. -/
theorem skip_append (p : UInt8 → Bool) (xs : List UInt8) (pre rest : List UInt8) (n : Nat)
    (hxs : ∀ b ∈ xs, p b = true) (hn : xs.length ≤ n)
    (hstop : xs.length = n ∨ p (rest.headD 0) = false) :
    skip p (pre ++ (xs ++ rest)) n pre.length = pre.length + xs.length := by
  induction xs generalizing pre n with
  | nil =>
    cases n with
    | zero => rfl
    | succ n =>
      have hp : p (rest.headD 0) = false := by
        rcases hstop with h | h
        · simp at h
        · exact h
      rw [skip, nil_append, byteAt_append, if_neg (by rw [hp]; decide)]
      rfl
  | cons b xs ih =>
    obtain ⟨m, rfl⟩ : ∃ m, n = m + 1 := ⟨n - 1, by simp at hn; omega⟩
    have hb : p b = true := hxs b (by simp)
    have hshift : pre ++ (b :: xs ++ rest) = (pre ++ [b]) ++ (xs ++ rest) := by simp
    rw [skip, byteAt_append, cons_append, headD_cons, if_pos hb]
    have hrec := ih (pre ++ [b]) m (fun c hc => hxs c (by simp [hc])) (by simpa using hn)
      (by simpa using hstop)
    rw [← cons_append, hshift]
    simpa [Nat.add_assoc, Nat.add_comm 1] using hrec

theorem skip_string {s : List UInt8} (hs : NulFree s) (pre rest : List UInt8) {n : Nat}
    (hn : s.length ≤ n) (hstop : s.length = n ∨ rest.headD 0 = 0) :
    skip (fun b => b ≠ 0) (pre ++ (s ++ rest)) n pre.length = pre.length + s.length :=
  skip_append _ s pre rest n (fun b hb => by simpa using hs b hb) hn
    (hstop.imp_right fun h => by rw [h]; decide)

/-- The NULs in front of a region that is empty or starts with another byte. -/
theorem skip_nuls (pre post : List UInt8) (k : Nat) {ys : List UInt8}
    (hys : ys = [] ∨ ∃ b l, ys = b :: l ∧ b ≠ 0) :
    skip (fun b => b = 0) (pre ++ (List.replicate k 0 ++ (ys ++ post))) (k + ys.length) pre.length =
      pre.length + k := by
  have hrun := skip_append (fun b => decide (b = 0)) (List.replicate k 0) pre (ys ++ post)
    (k + ys.length) (fun b hb => by simp [(mem_replicate.mp hb).2]) (by simp) ?_
  · simpa using hrun
  · rcases hys with rfl | ⟨b, l, rfl, hb⟩
    · exact .inl (by simp)
    · exact .inr (by simp [hb])

/-- Nothing, or bytes that end with a NUL. -/
def Closed (rest : List UInt8) : Prop := rest = [] ∨ ∃ r, rest = r ++ [0]

theorem Closed.append {xs ys : List UInt8} (hx : Closed xs) (hy : Closed ys) : Closed (xs ++ ys) := by
  rcases hy with rfl | ⟨r, rfl⟩
  · rwa [append_nil]
  · exact .inr ⟨xs ++ r, by simp⟩

/-- What is left behind a closed part has its own tokens. -/
theorem Closed.tokens_append {xs : List UInt8} (h : Closed xs) (ys : List UInt8) :
    tokens 0 (xs ++ ys) = tokens 0 xs ++ tokens 0 ys := by
  rcases h with rfl | ⟨r, rfl⟩
  · rfl
  · rw [append_assoc, singleton_append, Tokens.tokens_append,
      Tokens.tokens_append 0 r [], tokens_nil, append_nil]

theorem Closed.behind {xs ys : List UInt8} (h : Closed (xs ++ ys)) : Closed ys := by
  rcases eq_nil_or_concat ys with rfl | ⟨r, b, rfl⟩
  · exact .inl rfl
  · rcases h with h0 | ⟨r', hr'⟩
    · simp at h0
    · have hlast := congrArg List.getLast? hr'
      rw [concat_eq_append, ← append_assoc, getLast?_concat,
        getLast?_concat] at hlast
      exact .inr ⟨r, by rw [concat_eq_append, Option.some.inj hlast]⟩

/-- A string with closed bytes behind its NUL is a string of the whole length. -/
theorem Closed.refit {rest : List UInt8} (h : Closed rest) (front post : List UInt8) :
    ∃ w, w.length = front.length + rest.length ∧
      front ++ 0 :: (rest ++ post) = w ++ 0 :: post := by
  rcases h with rfl | ⟨r, rfl⟩
  · exact ⟨front, rfl, rfl⟩
  · exact ⟨front ++ 0 :: r, by simp, by simp⟩

/-- Cutting a string at its last `c`: what is left of it, and where the rest went. -/
theorem cutLast_string (c : UInt8) (pre s post : List UInt8) (hs : NulFree s) :
    ∃ rest, Closed rest ∧ (splitOff c s).1.length + rest.length = s.length ∧
      (cutLast (pre ++ (s ++ 0 :: post)) pre.length c).1 =
        pre ++ ((splitOff c s).1 ++ 0 :: (rest ++ post)) ∧
      (rest = [] ∧ (cutLast (pre ++ (s ++ 0 :: post)) pre.length c).2 = none ∧
          (splitOff c s).2 = none ∨
        ∃ after, NulFree after ∧ rest = after ++ [0] ∧ (splitOff c s).2 = some after ∧
          (cutLast (pre ++ (s ++ 0 :: post)) pre.length c).2 =
            some (pre.length + (splitOff c s).1.length + 1)) := by
  have hat : stringAt (pre ++ (s ++ 0 :: post)) pre.length = s := stringAt_string pre s post hs
  cases hcase : splitLast c s with
  | none =>
    have hoff : splitOff c s = (s, none) := by rw [splitOff, hcase]
    have hcut : cutLast (pre ++ (s ++ 0 :: post)) pre.length c =
        (pre ++ (s ++ 0 :: post), none) := by
      simp [cutLast, strrchr, hat, hcase]
    exact ⟨[], .inl rfl, by simp [hoff], by simp [hcut, hoff],
      .inl ⟨rfl, by rw [hcut], by rw [hoff]⟩⟩
  | some parts =>
    obtain ⟨before, after⟩ := parts
    have hoff : splitOff c s = (before, some after) := by rw [splitOff, hcase]
    have hsplit := splitLast_eq c s before after hcase
    have hcut : cutLast (pre ++ (s ++ 0 :: post)) pre.length c =
        (pre ++ (before ++ 0 :: (after ++ [0] ++ post)), some (pre.length + before.length + 1)) := by
      have hrchr : strrchr (pre ++ (s ++ 0 :: post)) pre.length c =
          some (pre.length + before.length) := by
        rw [strrchr, hat, hcase]
        rfl
      rw [cutLast, hrchr]
      simp only [Prod.mk.injEq, and_true]
      rw [hsplit, set_append_right _ _ (by omega)]
      simp
    refine ⟨after ++ [0], .inr ⟨after, rfl⟩, ?_, by rw [hcut, hoff], .inr ⟨after, ?_, rfl, by rw [hoff], ?_⟩⟩
    · rw [hoff, hsplit]
      simp
    · intro b hb
      exact hs b (by rw [hsplit]; simp [hb])
    · rw [hcut, hoff]

/-! ## Adding the portals -/

theorem splitOff_nulFree (c : UInt8) {s : List UInt8} (hs : NulFree s) :
    NulFree (splitOff c s).1 := by
  intro b hb
  refine hs b ?_
  cases hcase : splitLast c s with
  | none => simpa [splitOff, hcase] using hb
  | some parts =>
    obtain ⟨before, after⟩ := parts
    rw [splitLast_eq c s before after hcase]
    simp only [splitOff, hcase] at hb
    simp [hb]

/-- A string that was moved behind is still read there after the front was cut again. -/
theorem stringAt_behind (pre front rest after post : List UInt8) (h : NulFree after) {n : Nat}
    (hn : n = front.length + 1 + rest.length) :
    stringAt (pre ++ (front ++ 0 :: (rest ++ (after ++ [0] ++ post)))) (pre.length + n) = after := by
  have hsplit : pre ++ (front ++ 0 :: (rest ++ (after ++ [0] ++ post))) =
      (pre ++ (front ++ 0 :: rest)) ++ (after ++ 0 :: post) := by simp
  have hlen : pre.length + n = (pre ++ (front ++ 0 :: rest)).length := by
    simp [hn]
    omega
  rw [hsplit, hlen, stringAt_string _ after post h]

variable {env : Env} {drec : DiscoveryRec}

theorem addPortal_some {recs : List NodeRec} {targetname address : List UInt8}
    {port tag : Option (List UInt8)} (hr : env.resolves address port = true)
    (hm : ∀ n, env.calloc n = true) :
    addPortal env drec recs targetname address port tag =
      some (recs ++ [portalRec drec targetname address port tag]) := by
  simp [addPortal, hr, hm]

theorem addPortal_none {recs : List NodeRec} {targetname address : List UInt8}
    {port tag : Option (List UInt8)} (hr : ¬ env.resolves address port = true) :
    addPortal env drec recs targetname address port tag = none := by
  simp [addPortal, hr]

/-- A key without `c` is still in front after a cut at `c`. -/
theorem splitOff_key (c : UInt8) (key t : List UInt8) (hc : c ∉ key) :
    ∃ t', (splitOff c (key ++ t)).1 = key ++ t' := by
  cases hcase : splitLast c (key ++ t) with
  | none => exact ⟨t, by rw [splitOff, hcase]⟩
  | some parts =>
    obtain ⟨before, after⟩ := parts
    have hsplit := splitLast_eq c _ before after hcase
    rcases append_eq_append_iff.mp hsplit with ⟨m, hm, -⟩ | ⟨m, hm, ht⟩
    · exact ⟨m, by rw [splitOff, hcase, hm]⟩
    · cases m with
      | nil => exact ⟨[], by rw [splitOff, hcase, hm]; simp⟩
      | cons b m =>
        have hb : c = b := by simpa using (List.cons.inj ht).1
        exact absurd (by rw [hm, hb]; simp) hc

theorem isTargetAddress_split {s : List UInt8} (h : isTargetAddress s = true) :
    ∃ t, s = ascii "TargetAddress=" ++ t := by
  obtain ⟨t, ht⟩ := List.isPrefixOf_iff_prefix.mp h
  exact ⟨t, ht.symm⟩

/-- The brackets of an IPv6 address: what the pointer to the address reads. -/
theorem bracket_string (pre post t : List UInt8) (hs : NulFree (ascii "TargetAddress=" ++ t)) :
    let s := ascii "TargetAddress=" ++ t
    let buf := pre ++ (s ++ 0 :: post)
    let out := if byteAt buf (pre.length + 14) = 91 then
      ((cutLast buf pre.length 93).1, pre.length + 14 + 1) else (buf, pre.length + 14)
    ∃ front rest, Closed rest ∧ front.length + rest.length = s.length ∧
      out.1 = pre ++ (front ++ 0 :: (rest ++ post)) ∧
      stringAt out.1 out.2 =
        if (s.drop 14).head? = some 91 then (splitOff 93 s).1.drop 15 else s.drop 14 := by
  have hlen : (ascii "TargetAddress=").length = 14 := by decide
  have hdrop : (ascii "TargetAddress=" ++ t).drop 14 = t := drop_left' hlen
  have hsplit : pre ++ (ascii "TargetAddress=" ++ t ++ 0 :: post) =
      (pre ++ ascii "TargetAddress=") ++ (t ++ 0 :: post) := by simp
  have hpos : pre.length + 14 = (pre ++ ascii "TargetAddress=").length := by simp [hlen]
  have hbyte : byteAt (pre ++ (ascii "TargetAddress=" ++ t ++ 0 :: post)) (pre.length + 14) =
      t.headD 0 := by
    rw [hsplit, hpos, byteAt_append]
    cases t <;> rfl
  dsimp only
  rw [hdrop, hbyte]
  by_cases hb : t.head? = some 91
  · obtain ⟨t1, rfl⟩ : ∃ t1, t = 91 :: t1 := by
      cases t with
      | nil => simp at hb
      | cons b t1 => exact ⟨t1, by rw [Option.some.inj hb]⟩
    rw [if_pos hb, if_pos (by rfl)]
    obtain ⟨rest, hclosed, hrest, hcut, -⟩ := cutLast_string 93 pre _ post hs
    obtain ⟨t', ht'⟩ := splitOff_key 93 (ascii "TargetAddress=" ++ [91]) t1 (by decide +kernel)
    rw [append_assoc, singleton_append] at ht'
    refine ⟨_, rest, hclosed, hrest, hcut, ?_⟩
    dsimp only
    rw [hcut, ht']
    have hfree : NulFree t' := by
      intro x hx
      refine splitOff_nulFree 93 hs x ?_
      rw [ht']
      simp [hx]
    have hsplit : pre ++ (ascii "TargetAddress=" ++ [91] ++ t' ++ 0 :: (rest ++ post)) =
        (pre ++ (ascii "TargetAddress=" ++ [91])) ++ (t' ++ 0 :: (rest ++ post)) := by simp
    have hpos1 : pre.length + 14 + 1 = (pre ++ (ascii "TargetAddress=" ++ [91])).length := by
      simp [hlen]
    rw [hsplit, hpos1, stringAt_string _ _ _ hfree, drop_left' (by simp [hlen])]
  · have hne : ¬ t.headD 0 = 91 := by
      cases t with
      | nil => exact (by decide : ¬ (0 : UInt8) = 91)
      | cons b t1 => exact fun he => hb (congrArg some he)
    rw [if_neg hb, if_neg hne]
    refine ⟨ascii "TargetAddress=" ++ t, [], .inl rfl, by simp, by simp, ?_⟩
    dsimp only
    rw [hsplit, hpos, stringAt_string _ _ _ (fun b hb => hs b (by simp [hb]))]

/-- One `TargetAddress=` string: its record is added if its address resolves, and the
writes stay in it. -/
theorem addAddress_string (pre s post : List UInt8) (hs : NulFree s)
    (hkey : isTargetAddress s = true) (name : Nat) (tname : List UInt8)
    (hname : ∀ tail, stringAt (pre ++ tail) name = tname) (recs : List NodeRec)
    (hm : ∀ n, env.calloc n = true) :
    ∃ w, w.length = s.length ∧
      addAddress env drec (pre ++ (s ++ 0 :: post)) name pre.length recs =
        ⟨pre ++ (w ++ 0 :: post),
          if lineResolves env s then recs ++ [addressRec drec tname s] else recs,
          lineResolves env s⟩ := by
  obtain ⟨rest1, hclosed1, hlen1, hbuf1, htag⟩ := cutLast_string 44 pre s post hs
  obtain ⟨t, rfl⟩ := isTargetAddress_split hkey
  obtain ⟨t1, ht1⟩ := splitOff_key 44 (ascii "TargetAddress=") t (by decide +kernel)
  have hfree1 := splitOff_nulFree 44 hs
  obtain ⟨rest2, hclosed2, hlen2, hbuf2, hport⟩ := cutLast_string 58 pre _ (rest1 ++ post) hfree1
  obtain ⟨t2, ht2⟩ := splitOff_key 58 (ascii "TargetAddress=") t1 (by decide +kernel)
  have hfree2 := splitOff_nulFree 58 hfree1
  have hparse : parseAddress (ascii "TargetAddress=" ++ t) =
      { address := if ((ascii "TargetAddress=" ++ t2).drop 14).head? = some 91 then
          (splitOff 93 (ascii "TargetAddress=" ++ t2)).1.drop 15
          else (ascii "TargetAddress=" ++ t2).drop 14
        port := (splitOff 58 (splitOff 44 (ascii "TargetAddress=" ++ t)).1).2
        tag := (splitOff 44 (ascii "TargetAddress=" ++ t)).2 } := by
    simp only [parseAddress, ht1, ht2]
  rw [ht1] at hlen1 hbuf1 htag hlen2 hbuf2 hport hfree1 hfree2 hparse
  rw [ht2] at hlen2 hbuf2 hport hfree2
  obtain ⟨front, rest, hclosed, hlen, hbuf, haddr⟩ :=
    bracket_string pre (rest2 ++ (rest1 ++ post)) t2 hfree2
  have hsum : front.length + rest.length + rest2.length + rest1.length =
      (ascii "TargetAddress=" ++ t).length := by omega
  have hfront1 : front.length + rest.length + rest2.length = (ascii "TargetAddress=" ++ t1).length := by
    omega
  have hfront2 : front.length + rest.length = (ascii "TargetAddress=" ++ t2).length := hlen
  -- the strings that were cut off lie behind the address, whatever was cut there
  have htags : (cutLast (pre ++ (ascii "TargetAddress=" ++ t ++ 0 :: post)) pre.length 44).2.map
      (stringAt (pre ++ (front ++ 0 :: (rest ++ (rest2 ++ (rest1 ++ post)))))) =
      (splitOff 44 (ascii "TargetAddress=" ++ t)).2 := by
    rcases htag with ⟨-, hnone, hoff⟩ | ⟨after, hafter, rfl, hoff, hptr⟩
    · rw [hnone, hoff]
      rfl
    · rw [hptr, hoff, Option.map_some, ← append_assoc rest rest2, Nat.add_assoc,
        stringAt_behind pre front (rest ++ rest2) after post hafter
          (by simp only [length_append] at hfront1 ⊢; omega)]
  have hports : (cutLast (pre ++ (ascii "TargetAddress=" ++ t1 ++ 0 :: (rest1 ++ post)))
      pre.length 58).2.map
      (stringAt (pre ++ (front ++ 0 :: (rest ++ (rest2 ++ (rest1 ++ post)))))) =
      (splitOff 58 (ascii "TargetAddress=" ++ t1)).2 := by
    rcases hport with ⟨-, hnone, hoff⟩ | ⟨after, hafter, rfl, hoff, hptr⟩
    · rw [hnone, hoff]
      rfl
    · rw [hptr, hoff, Option.map_some, Nat.add_assoc,
        stringAt_behind pre front rest after (rest1 ++ post) hafter (by omega)]
  obtain ⟨w, hw, hrefit⟩ := (hclosed.append (hclosed2.append hclosed1)).refit front post
  refine ⟨w, by simp only [length_append] at hw hsum ⊢; omega, ?_⟩
  have hout : pre ++ (w ++ 0 :: post) =
      pre ++ (front ++ 0 :: (rest ++ (rest2 ++ (rest1 ++ post)))) := by
    rw [← hrefit]
    simp
  unfold addAddress
  dsimp only
  rw [hbuf1, hbuf2, haddr, hbuf, htags, hports, hname, hout]
  by_cases hr : lineResolves env (ascii "TargetAddress=" ++ t) = true
  · rw [if_pos hr, hr]
    rw [lineResolves, hparse] at hr
    rw [addPortal_some hr hm]
    simp only [addressRec, hparse]
  · rw [if_neg hr, Bool.eq_false_iff.mpr hr]
    rw [lineResolves, hparse] at hr
    rw [addPortal_none hr]

theorem addAddresses_done (name limit fuel : Nat) (buf : List UInt8) (text : Nat)
    (recs : List NodeRec) (h : limit ≤ text) :
    addAddresses env drec name limit fuel buf text recs = ⟨buf, recs, true⟩ := by
  cases fuel with
  | zero => rfl
  | succ fuel => rw [addAddresses, if_neg (by omega)]

/-- Bytes up to a limit are strings: each ends with a NUL, the last one at the limit. -/
def Terminated (ys post : List UInt8) : Prop :=
  ys.getLast? = some 0 ∨ post.head? = some 0

/-- A region is a string, and nothing or a NUL behind it. -/
theorem split_string (ys : List UInt8) :
    ∃ s rest, ys = s ++ rest ∧ NulFree s ∧ (rest = [] ∨ ∃ r, rest = 0 :: r) := by
  refine ⟨_, _, (takeWhile_append_dropWhile (p := fun b => b != 0)).symm, cstr_nulFree ys, ?_⟩
  cases hcase : ys.dropWhile (fun b => b != 0) with
  | nil => exact .inl rfl
  | cons b r =>
    have hnot := head?_dropWhile_not (fun b => b != 0) ys
    rw [hcase] at hnot
    obtain rfl : b = 0 := by simpa using hnot
    exact .inr ⟨r, rfl⟩

/-- The first string of a region. -/
theorem Terminated.first {ys post : List UInt8} (h : Terminated ys post) :
    ∃ s rest, NulFree s ∧ ys ++ post = s ++ 0 :: rest ∧
      ((∃ ys', ys = s ++ 0 :: ys' ∧ rest = ys' ++ post ∧ (ys' = [] ∨ Terminated ys' post)) ∨
        ys = s) := by
  obtain ⟨s, rest, rfl, hfree, rfl | ⟨ys', rfl⟩⟩ := split_string ys
  · rw [append_nil] at h ⊢
    have hpost : post.head? = some 0 :=
      h.resolve_left fun hlast => absurd rfl (hfree 0 (mem_of_getLast? hlast))
    cases post with
    | nil => simp at hpost
    | cons b post =>
      obtain rfl : b = 0 := by simpa using hpost
      exact ⟨s, post, hfree, rfl, .inr rfl⟩
  · refine ⟨s, ys' ++ post, hfree, by simp, .inl ⟨ys', rfl, rfl, ?_⟩⟩
    cases ys' with
    | nil => exact .inl rfl
    | cons c ys' =>
      refine .inr (h.imp_left fun hlast => ?_)
      simpa [getLast?_append, getLast?_cons_cons] using hlast

/-- One string as a list of tokens. -/
theorem tokens_string {s : List UInt8} (hs : NulFree s) : tokens 0 s = if s = [] then [] else [s] := by
  by_cases hne : s = []
  · rw [if_pos hne, hne]
    rfl
  · rw [if_neg hne, tokens_token 0 (fun h0 => absurd rfl (hs 0 h0)) hne]

/-- One string behind a name. -/
theorem addedLines_string {s : List UInt8} (hs : NulFree s) (tname : List UInt8) :
    addedLines env drec tname (tokens 0 s) =
      if isTargetAddress s then
        if lineResolves env s then ([addressRec drec tname s], true) else ([], false)
      else ([], true) := by
  rw [tokens_string hs]
  by_cases hne : s = []
  · subst hne
    rw [if_pos rfl, if_neg (by decide +kernel)]
    rfl
  · rw [if_neg hne]
    rfl

/-- The loop over the strings behind a name adds the record of each address, up to the
first that does not resolve. -/
theorem addAddresses_lines (name : Nat) (tname : List UInt8) (hm : ∀ n, env.calloc n = true)
    (fuel : Nat) (pre ys post : List UInt8) (recs : List NodeRec) (hfuel : ys.length ≤ fuel)
    (hname : ∀ tail, stringAt (pre ++ tail) name = tname) (hterm : ys = [] ∨ Terminated ys post) :
    ∃ ys', ys'.length = ys.length ∧
      addAddresses env drec name (pre.length + ys.length) fuel (pre ++ (ys ++ post)) pre.length recs =
        ⟨pre ++ (ys' ++ post), recs ++ (addedLines env drec tname (tokens 0 ys)).1,
          (addedLines env drec tname (tokens 0 ys)).2⟩ := by
  induction fuel generalizing pre ys recs with
  | zero =>
    obtain rfl : ys = [] := length_eq_zero_iff.mp (by omega)
    exact ⟨[], rfl, by simp [addAddresses, addedLines]⟩
  | succ fuel ih =>
    by_cases hys : ys = []
    · subst hys
      exact ⟨[], rfl, by rw [addAddresses_done _ _ _ _ _ _ (by simp)]; simp [addedLines]⟩
    have hterm : Terminated ys post := hterm.resolve_left hys
    obtain ⟨s, rest, hfree, hsplit, hcases⟩ := hterm.first
    have hpos : 0 < ys.length := length_pos_of_ne_nil hys
    have hat : stringAt (pre ++ (ys ++ post)) pre.length = s := by
      rw [hsplit, stringAt_string pre s rest hfree]
    have hkey : keyAt (pre ++ (ys ++ post)) pre.length (ascii "TargetAddress=") =
        isTargetAddress s := by rw [keyAt, hat, isTargetAddress]
    have hone := @addedLines_string env drec s hfree tname
    rw [addAddresses, if_pos (by omega), hat, hkey, hsplit]
    -- what the loop does behind the first string, once that is read
    have hnext : ∀ (w : List UInt8) (recs : List NodeRec), w.length = s.length →
        (addedLines env drec tname (tokens 0 s)).2 = true → ∃ ys'', ys''.length = ys.length ∧
        addAddresses env drec name (pre.length + ys.length) fuel (pre ++ (w ++ 0 :: rest))
          (pre.length + s.length + 1) (recs ++ (addedLines env drec tname (tokens 0 s)).1) =
        ⟨pre ++ (ys'' ++ post), recs ++ (addedLines env drec tname (tokens 0 ys)).1,
          (addedLines env drec tname (tokens 0 ys)).2⟩ := by
      intro w recs hw hok
      rcases hcases with ⟨ys', rfl, rfl, hterm'⟩ | rfl
      · have hpre : ∀ tail, stringAt (pre ++ (w ++ [0]) ++ tail) name = tname := by
          intro tail
          rw [append_assoc]
          exact hname _
        obtain ⟨ys'', hlen'', heq⟩ := ih (pre ++ (w ++ [0])) ys'
          (recs ++ (addedLines env drec tname (tokens 0 s)).1) (by simp at hfuel; omega) hpre hterm'
        have hshift : pre ++ (w ++ 0 :: (ys' ++ post)) = pre ++ (w ++ [0]) ++ (ys' ++ post) := by
          simp
        have hpos' : pre.length + s.length + 1 = (pre ++ (w ++ [0])).length := by
          simp [hw]
          omega
        have hlim : pre.length + (s ++ 0 :: ys').length =
            (pre ++ (w ++ [0])).length + ys'.length := by
          simp [hw]
          omega
        refine ⟨w ++ 0 :: ys'', by simp [hw, hlen''], ?_⟩
        rw [hshift, hpos', hlim, heq, tokens_append, addedLines_append _ _ _ _ hok]
        simp
      · have hpost : post = 0 :: rest := append_cancel_left hsplit
        refine ⟨w, hw, ?_⟩
        rw [addAddresses_done _ _ _ _ _ _ (by omega), hpost, hok]
    by_cases hs : isTargetAddress s = true
    · obtain ⟨w, hw, hadd⟩ :=
        @addAddress_string env drec pre s rest hfree hs name tname hname recs hm
      simp only [hs, if_true, hadd]
      by_cases hr : lineResolves env s = true
      · rw [if_pos hs, if_pos hr] at hone
        obtain ⟨ys'', hlen'', heq⟩ := hnext w recs hw (by rw [hone])
        rw [hone] at heq
        exact ⟨ys'', hlen'', by rw [if_pos hr, if_pos hr, heq]⟩
      · rw [if_pos hs, if_neg hr] at hone
        rw [if_neg hr, if_neg hr, Bool.eq_false_iff.mpr hr]
        rcases hcases with ⟨ys', rfl, rfl, -⟩ | rfl
        · refine ⟨w ++ 0 :: ys', by simp [hw], ?_⟩
          rw [tokens_append, addedLines_fail _ _ _ _ (by rw [hone]), hone]
          simp
        · refine ⟨w, hw, ?_⟩
          rw [hone, append_cancel_left hsplit]
          simp
    · rw [if_neg hs] at hone ⊢
      obtain ⟨ys'', hlen'', heq⟩ := hnext s recs rfl (by rw [hone])
      rw [hone, append_nil] at heq
      exact ⟨ys'', hlen'', heq⟩

/-- The NULs a region starts with. -/
theorem split_nuls (ys : List UInt8) :
    ∃ k ys', ys = List.replicate k 0 ++ ys' ∧ (ys' = [] ∨ ∃ b l, ys' = b :: l ∧ b ≠ 0) := by
  induction ys with
  | nil => exact ⟨0, [], rfl, .inl rfl⟩
  | cons b ys ih =>
    by_cases hb : b = 0
    · obtain ⟨k, ys', rfl, hys'⟩ := ih
      exact ⟨k + 1, ys', by rw [hb, replicate_succ]; rfl, hys'⟩
    · exact ⟨0, b :: ys, rfl, .inr ⟨b, ys, rfl, hb⟩⟩

/-- `add_target_record` adds the portals of a target, up to where it fails. -/
theorem addTargetRecord_target (hm : ∀ n, env.calloc n = true) (pre name ys post : List UInt8)
    (recs : List NodeRec) (hname : NulFree name) (hsep : ys = [] ∨ ys.head? = some 0)
    (hterm : Terminated ys post) :
    ∃ ys', ys'.length = ys.length ∧
      addTargetRecord env drec (pre ++ (name ++ (ys ++ post))) pre.length
        (pre.length + name.length + ys.length) recs =
        ⟨pre ++ (name ++ (ys' ++ post)), recs ++ (added env drec ⟨name, tokens 0 ys⟩).1,
          (added env drec ⟨name, tokens 0 ys⟩).2⟩ := by
  have hlimit : pre.length + name.length + ys.length - pre.length = name.length + ys.length := by
    omega
  have hskip : skip (fun b => b ≠ 0) (pre ++ (name ++ (ys ++ post))) (name.length + ys.length)
      pre.length = pre.length + name.length := by
    refine skip_string hname pre (ys ++ post) (by omega) (hsep.imp (fun h => by simp [h]) fun h => ?_)
    cases ys with
    | nil => simp at h
    | cons b ys => simpa using h
  obtain ⟨k, ys1, rfl, hys1⟩ := split_nuls ys
  have htok : tokens 0 (List.replicate k 0 ++ ys1) = tokens 0 ys1 := tokens_replicate_append 0 k ys1
  have hshift : pre ++ (name ++ (List.replicate k 0 ++ ys1 ++ post)) =
      (pre ++ name) ++ (List.replicate k 0 ++ (ys1 ++ post)) := by simp
  have hskip0 : skip (fun b => b = 0) (pre ++ (name ++ (List.replicate k 0 ++ ys1 ++ post)))
      (k + ys1.length) (pre.length + name.length) = pre.length + name.length + k := by
    have hrun := skip_nuls (pre ++ name) post k hys1
    rw [length_append] at hrun
    rw [hshift, hrun]
  unfold addTargetRecord
  rw [added]
  dsimp only
  rw [hlimit, hskip, Nat.add_sub_cancel_left]
  by_cases hfits : targetNameMaxlen < name.length
  · exact ⟨_, rfl, by rw [if_pos hfits, if_pos hfits, append_nil]⟩
  rw [if_neg hfits, if_neg hfits]
  have hlimit0 : pre.length + name.length + (List.replicate k (0 : UInt8) ++ ys1).length -
      (pre.length + name.length) = k + ys1.length := by
    simp
  rw [hlimit0, hskip0]
  rcases hys1 with rfl | ⟨b, l, rfl, hb⟩
  · -- no string behind the name
    have hlines : tokens 0 (List.replicate k (0 : UInt8) ++ []) = [] := htok
    have hat : stringAt (pre ++ (name ++ (List.replicate k 0 ++ [] ++ post))) pre.length = name := by
      obtain ⟨rest, hrest⟩ : ∃ rest, List.replicate k 0 ++ [] ++ post = 0 :: rest := by
        cases k with
        | succ k => exact ⟨List.replicate k 0 ++ [] ++ post, by simp [replicate_succ]⟩
        | zero =>
          rcases hterm with h | h
          · simp at h
          · cases post with
            | nil => simp at h
            | cons b post => exact ⟨post, by simpa using h⟩
      rw [hrest, stringAt_string _ _ _ hname]
    refine ⟨List.replicate k 0 ++ [], rfl, ?_⟩
    rw [if_pos (by simp), if_pos hlines, hat]
    by_cases haddr : cstr drec.address = []
    · rw [if_pos haddr, if_neg (fun h => h.1 haddr), append_nil recs]
    by_cases hres : env.resolves (cstr drec.address) (some (printInt drec.port)) = true
    · rw [if_neg haddr, if_pos ⟨haddr, hres⟩, addPortal_some hres hm]
      rfl
    · rw [if_neg haddr, if_neg (fun h => hres h.2), addPortal_none hres, append_nil recs]
  · have hk : k ≠ 0 := by
      rintro rfl
      rcases hsep with h | h
      · simp at h
      · exact hb (by simpa using h)
    have hpre : ∀ tail, stringAt (pre ++ (name ++ List.replicate k 0) ++ tail) pre.length = name := by
      intro tail
      obtain ⟨m, rfl⟩ : ∃ m, k = m + 1 := ⟨k - 1, by omega⟩
      have hsplit : pre ++ (name ++ List.replicate (m + 1) 0) ++ tail =
          pre ++ (name ++ 0 :: (List.replicate m 0 ++ tail)) := by simp [replicate_succ]
      rw [hsplit, stringAt_string _ _ _ hname]
    have hterm1 : Terminated (b :: l) post := by
      rcases hterm with h | h
      · exact .inl (by simpa [getLast?_append] using h)
      · exact .inr h
    have hfuel : pre.length + name.length + (List.replicate k 0 ++ b :: l).length -
        (pre.length + name.length + k) = (b :: l).length := by
      simp
      omega
    have hpos : pre.length + name.length + k = (pre ++ (name ++ List.replicate k 0)).length := by
      simp
      omega
    have hend : pre.length + name.length + (List.replicate k 0 ++ b :: l).length =
        (pre ++ (name ++ List.replicate k 0)).length + (b :: l).length := by
      simp
      omega
    have hbuf : pre ++ (name ++ (List.replicate k 0 ++ b :: l ++ post)) =
        pre ++ (name ++ List.replicate k 0) ++ (b :: l ++ post) := by simp
    obtain ⟨ys', hlen', heq⟩ := @addAddresses_lines env drec pre.length name hm (b :: l).length _ _
      post recs (Nat.le_refl _) hpre (.inr hterm1)
    refine ⟨List.replicate k 0 ++ ys', by simp [hlen'], ?_⟩
    rw [if_neg (by simp), hfuel, hend, hpos, hbuf, heq]
    rw [htok, if_neg (tokens_ne_nil 0 l hb)]
    simp

end SendTargetsRecord
