import OpenIscsi.SendTargetsRecord

/-!
# SendTargets responses in pieces

The text of a response is cut into PDUs anywhere. What is left in the buffer
after a PDU is the text from the last target on, and the records added so far
are those of the targets before it, so where the cuts fall does not matter.
-/

namespace SendTargetsPdus

open CString Tokens SendTargets SendTargetsRecord List

variable {ys : List UInt8}

/-- A string in front of nothing or a NUL is a token. -/
theorem tokens_string_append {s : List UInt8} (hs : NulFree s) (hne : s ≠ [])
    (hys : ys = [] ∨ ys.head? = some 0) : tokens 0 (s ++ ys) = s :: tokens 0 ys := by
  have hs0 : (0 : UInt8) ∉ s := fun h0 => absurd rfl (hs 0 h0)
  cases ys with
  | nil => rw [append_nil, tokens_token 0 hs0 hne, tokens_nil]
  | cons b ys =>
    obtain rfl : b = 0 := by simpa using hys
    rw [Tokens.tokens_append, tokens_token 0 hs0 hne, tokens_sep_cons]
    rfl

theorem isTargetName_split {s : List UInt8} (h : isTargetName s = true) :
    ∃ t, s = ascii "TargetName=" ++ t := by
  obtain ⟨t, ht⟩ := List.isPrefixOf_iff_prefix.mp h
  exact ⟨t, ht.symm⟩

theorem isTargetName_ne_nil {s : List UInt8} (h : isTargetName s = true) : s ≠ [] := by
  obtain ⟨t, rfl⟩ := isTargetName_split h
  have hlen : (ascii "TargetName=").length = 11 := by decide
  intro h0
  have := congrArg List.length h0
  simp [hlen] at this

theorem targets_nil : targets [] = [] := rfl

theorem targets_of_none {strings : List (List UInt8)}
    (h : ∀ s ∈ strings, isTargetName s = false) : targets strings = [] := by
  rw [targets, sections_of_none _ h]
  rfl

variable {n : List UInt8}

theorem targets_append (hn : isTargetName n = true) (ks xs : List (List UInt8)) :
    targets (ks ++ n :: xs) = targets ks ++ targets (n :: xs) := by
  rw [targets, sections_append _ hn, map_append]
  rfl

theorem targets_single {xs : List (List UInt8)} (hn : isTargetName n = true)
    (hxs : ∀ s ∈ xs, isTargetName s = false) : targets (n :: xs) = [⟨n.drop 11, xs⟩] := by
  rw [targets, sections_single _ hn hxs]
  rfl

variable {pre : List UInt8}

/-- Where bytes that end with a NUL have a name in them, that NUL is behind the name. -/
theorem closed_behind_name (hn : isTargetName n = true) (hfree : NulFree n)
    (h : Closed (pre ++ (n ++ ys))) : ∃ r, ys = r ++ [0] := by
  have hne := isTargetName_ne_nil hn
  rcases h with h0 | ⟨r, hr⟩
  · exact absurd h0 (by simp [hne])
  · rcases eq_nil_or_concat ys with rfl | ⟨r', b, rfl⟩
    · obtain ⟨n', c, rfl⟩ := (eq_nil_or_concat n).resolve_left hne
      have hlast := congrArg List.getLast? hr
      rw [append_nil, concat_eq_append, ← append_assoc, getLast?_concat,
        getLast?_concat] at hlast
      exact absurd (Option.some.inj hlast) (hfree c (by simp))
    · refine ⟨r', ?_⟩
      have hlast := congrArg List.getLast? hr
      rw [concat_eq_append, ← append_assoc, ← append_assoc, getLast?_concat,
        getLast?_concat] at hlast
      rw [concat_eq_append, Option.some.inj hlast]

/-! ## A target that fails -/

section Failing

variable (env : Env) (drec : DiscoveryRec) (recs0 : List NodeRec)

/-- The first target that is not accepted: the records of those before it are added,
and its own up to where it fails. -/
def Failed (ts : List Target) (recs : List NodeRec) : Prop :=
  ∃ good bad later, ts = good ++ bad :: later ∧ (∀ t ∈ good, Accepted env drec t) ∧
    ¬ Accepted env drec bad ∧ recs = recs0 ++ good.flatMap (portals drec) ++ (added env drec bad).1

variable {env : Env} {drec : DiscoveryRec} {recs0 : List NodeRec}
variable {ts : List Target} {recs : List NodeRec}

theorem Failed.append (h : Failed env drec recs0 ts recs) (more : List Target) :
    Failed env drec recs0 (ts ++ more) recs := by
  obtain ⟨good, bad, later, rfl, hgood, hbad, hrecs⟩ := h
  exact ⟨good, bad, later ++ more, by simp, hgood, hbad, hrecs⟩

/-- Accepted targets in front. -/
theorem Failed.behind {front : List Target} (hfront : ∀ t ∈ front, Accepted env drec t)
    (h : Failed env drec (recs0 ++ front.flatMap (portals drec)) ts recs) :
    Failed env drec recs0 (front ++ ts) recs := by
  obtain ⟨good, bad, later, rfl, hgood, hbad, hrecs⟩ := h
  refine ⟨front ++ good, bad, later, by simp, forall_mem_append.mpr ⟨hfront, hgood⟩, hbad, ?_⟩
  rw [hrecs, flatMap_append]
  simp

theorem Failed.not_all (h : Failed env drec recs0 ts recs)
    (hall : ∀ t ∈ ts, Accepted env drec t) : False := by
  obtain ⟨good, bad, later, rfl, -, hbad, -⟩ := h
  exact hbad (hall bad (by simp))

end Failing

/-! ## The loop over the strings -/

section Scanning

variable (drec : DiscoveryRec) (tail : List UInt8) (recs0 : List NodeRec)

/-- The loop has read `done` and not yet `rest`: no target was found, or `n` starts
the last one and all before it are records. Bytes before `n` may have been written. -/
inductive Scanned : List UInt8 → List UInt8 → List UInt8 → Option Nat → List NodeRec → Prop
  | before {done rest : List UInt8} (hnone : ∀ s ∈ tokens 0 done, isTargetName s = false) :
    Scanned done rest (done ++ (rest ++ 0 :: tail)) none recs0
  | inside {pre pre' n ys rest : List UInt8} (hlen : pre'.length = pre.length) (hpre : Closed pre)
    (hn : isTargetName n = true) (hfree : NulFree n) (hsep : ys = [] ∨ ys.head? = some 0)
    (hys : ∀ s ∈ tokens 0 ys, isTargetName s = false) :
    Scanned (pre ++ (n ++ ys)) rest (pre' ++ (n ++ (ys ++ (rest ++ 0 :: tail)))) (some pre.length)
      (recs0 ++ (targets (tokens 0 pre)).flatMap (portals drec))

variable {drec : DiscoveryRec} {tail : List UInt8} {recs0 : List NodeRec}
variable {done rest buf : List UInt8} {record : Option Nat} {recs : List NodeRec}

/-- What is not yet read is not written. -/
theorem Scanned.unread (h : Scanned drec tail recs0 done rest buf record recs) :
    ∃ b, b.length = done.length ∧ buf = b ++ (rest ++ 0 :: tail) := by
  cases h with
  | before hnone => exact ⟨done, rfl, rfl⟩
  | @inside pre pre' n ys rest hlen hpre hn hfree hsep hys =>
    exact ⟨pre' ++ (n ++ ys), by simp [hlen], by simp⟩

/-- NULs between strings. -/
theorem Scanned.nuls {k : Nat}
    (h : Scanned drec tail recs0 done (List.replicate k 0 ++ rest) buf record recs) :
    Scanned drec tail recs0 (done ++ List.replicate k 0) rest buf record recs := by
  cases h with
  | before hnone =>
    have hbuf : done ++ (List.replicate k 0 ++ rest ++ 0 :: tail) =
        (done ++ List.replicate k 0) ++ (rest ++ 0 :: tail) := by simp
    rw [hbuf]
    refine .before ?_
    rw [tokens_append_replicate]
    exact hnone
  | @inside pre pre' n ys _ hlen hpre hn hfree hsep hys =>
    have hdone : pre ++ (n ++ ys) ++ List.replicate k 0 = pre ++ (n ++ (ys ++ List.replicate k 0)) := by
      simp
    have hbuf : pre' ++ (n ++ (ys ++ (List.replicate k 0 ++ rest ++ 0 :: tail))) =
        pre' ++ (n ++ (ys ++ List.replicate k 0 ++ (rest ++ 0 :: tail))) := by simp
    rw [hdone, hbuf]
    refine .inside hlen hpre hn hfree ?_ ?_
    · cases k with
      | zero => simpa using hsep
      | succ k =>
        refine .inr ?_
        rcases hsep with rfl | hsep
        · rfl
        · cases ys with
          | nil => simp at hsep
          | cons b ys => simpa using hsep
    · rw [tokens_append_replicate]
      exact hys

/-- A string that starts no target. -/
theorem Scanned.string {s : List UInt8} (hdone : Closed done) (hs : NulFree s) (hne : s ≠ [])
    (hname : isTargetName s = false)
    (h : Scanned drec tail recs0 done (s ++ rest) buf record recs) :
    Scanned drec tail recs0 (done ++ s) rest buf record recs := by
  have htok : tokens 0 s = [s] := by rw [tokens_string hs, if_neg hne]
  cases h with
  | before hnone =>
    have hbuf : done ++ (s ++ rest ++ 0 :: tail) = (done ++ s) ++ (rest ++ 0 :: tail) := by simp
    rw [hbuf]
    refine .before ?_
    rw [hdone.tokens_append, htok]
    exact forall_mem_append.mpr ⟨hnone, forall_mem_singleton.mpr hname⟩
  | @inside pre pre' n ys _ hlen hpre hn hfree hsep hys =>
    have hbuf : pre' ++ (n ++ (ys ++ (s ++ rest ++ 0 :: tail))) =
        pre' ++ (n ++ (ys ++ s ++ (rest ++ 0 :: tail))) := by simp
    have hsplit : pre ++ (n ++ ys) ++ s = pre ++ (n ++ (ys ++ s)) := by simp
    obtain ⟨r, rfl⟩ := closed_behind_name hn hfree hdone
    rw [hbuf, hsplit]
    refine .inside hlen hpre hn hfree (.inr ?_) ?_
    · rcases hsep with h0 | hsep
      · simp at h0
      · cases r with
        | nil => rfl
        | cons b r => simpa using hsep
    · rw [Closed.tokens_append (.inr ⟨r, rfl⟩), htok]
      exact forall_mem_append.mpr ⟨hys, forall_mem_singleton.mpr hname⟩

variable {env : Env}

def Checked (env : Env) (drec : DiscoveryRec) (done : List UInt8) (record : Option Nat) : Prop :=
  ∀ n, record = some n → n ≤ done.length ∧ ∀ t ∈ targets (tokens 0 (done.take n)), Accepted env drec t

theorem Checked.append (h : Checked env drec done record) (more : List UInt8) :
    Checked env drec (done ++ more) record := by
  intro n hn
  obtain ⟨hle, hacc⟩ := h n hn
  refine ⟨by simp only [length_append]; omega, ?_⟩
  rw [take_append_of_le_length hle]
  exact hacc

theorem checked_end (h : ∀ t ∈ targets (tokens 0 done), Accepted env drec t) (more : List UInt8) :
    Checked env drec (done ++ more) (some done.length) := by
  intro n hn
  obtain rfl := Option.some.inj hn
  rw [take_left]
  exact ⟨by simp, h⟩

/-- How the loop over the strings of `whole` ends. -/
def ScanEnd (env : Env) (drec : DiscoveryRec) (tail : List UInt8) (recs0 : List NodeRec)
    (whole : List UInt8) (scan : Scan) : Prop :=
  (scan.out.ok = true ∧ scan.text = whole.length ∧ Checked env drec whole scan.record ∧
    Scanned drec tail recs0 whole [] scan.out.buf scan.record scan.out.recs) ∨
  (scan.out.ok = false ∧
    ∀ X, Failed env drec recs0 (targets (tokens 0 (whole ++ 0 :: X))) scan.out.recs)

variable (drec) in
/-- A target that is complete: it is added, or it fails. -/
theorem endRecord_target (hm : ∀ n, env.calloc n = true) {pre' : List UInt8} (t ys post : List UInt8)
    (hlen : pre'.length = pre.length) (hfree : NulFree (ascii "TargetName=" ++ t))
    (hsep : ys = [] ∨ ys.head? = some 0) (hterm : Terminated ys post) (recs : List NodeRec) :
    ∃ ys', ys'.length = ys.length ∧
      addTargetRecord env drec (pre' ++ (ascii "TargetName=" ++ t ++ (ys ++ post))) (pre.length + 11)
        (pre ++ (ascii "TargetName=" ++ t ++ ys)).length recs =
        ⟨pre' ++ ascii "TargetName=" ++ (t ++ (ys' ++ post)),
          recs ++ (added env drec ⟨t, tokens 0 ys⟩).1, (added env drec ⟨t, tokens 0 ys⟩).2⟩ := by
  have hkey : (ascii "TargetName=").length = 11 := by decide
  obtain ⟨ys', hlen', hadd⟩ := @addTargetRecord_target env drec hm (pre' ++ ascii "TargetName=")
    t ys post recs (fun b hb => hfree b (by simp [hb])) hsep hterm
  have hbuf : pre' ++ (ascii "TargetName=" ++ t ++ (ys ++ post)) =
      pre' ++ ascii "TargetName=" ++ (t ++ (ys ++ post)) := by simp
  have hpos : pre.length + 11 = (pre' ++ ascii "TargetName=").length := by simp [hkey, hlen]
  have hlim : (pre ++ (ascii "TargetName=" ++ t ++ ys)).length =
      (pre' ++ ascii "TargetName=").length + t.length + ys.length := by
    simp only [length_append]
    omega
  exact ⟨ys', hlen', by rw [hbuf, hpos, hlim, hadd]⟩

/-- The last target of a text, when nothing else starts behind its name. -/
theorem targets_last {t : List UInt8} (hpre : Closed pre)
    (hn : isTargetName (ascii "TargetName=" ++ t) = true)
    (hfree : NulFree (ascii "TargetName=" ++ t)) (hsep : ys = [] ∨ ys.head? = some 0)
    (hys : ∀ s ∈ tokens 0 ys, isTargetName s = false) :
    targets (tokens 0 (pre ++ (ascii "TargetName=" ++ t ++ ys))) =
      targets (tokens 0 pre) ++ [⟨t, tokens 0 ys⟩] := by
  have hkey : (ascii "TargetName=").length = 11 := by decide
  rw [hpre.tokens_append, tokens_string_append hfree (isTargetName_ne_nil hn) hsep,
    targets_append hn, targets_single hn hys, drop_left' hkey]

/-- A string that starts a target: the target before it is complete, and is added or fails. -/
theorem Scanned.name (hm : ∀ n, env.calloc n = true) {s : List UInt8} (hdone : Closed done)
    (hs : NulFree s) (hname : isTargetName s = true)
    (hgood : Checked env drec done record)
    (h : Scanned drec tail recs0 done (s ++ rest) buf record recs) :
    ((endRecord env drec buf done.length record recs).ok = true ∧
      (∀ t ∈ targets (tokens 0 done), Accepted env drec t) ∧
      Scanned drec tail recs0 (done ++ s) rest (endRecord env drec buf done.length record recs).buf
        (some done.length) (endRecord env drec buf done.length record recs).recs ∧
      ∃ b, b.length = done.length ∧
        (endRecord env drec buf done.length record recs).buf = b ++ (s ++ (rest ++ 0 :: tail))) ∨
    ((endRecord env drec buf done.length record recs).ok = false ∧
      Failed env drec recs0 (targets (tokens 0 done))
        (endRecord env drec buf done.length record recs).recs) := by
  cases h with
  | before hnone =>
    have hbuf : done ++ (s ++ rest ++ 0 :: tail) = done ++ (s ++ ([] ++ (rest ++ 0 :: tail))) := by
      simp
    have hnew : Scanned drec tail recs0 (done ++ (s ++ [])) rest
        (done ++ (s ++ ([] ++ (rest ++ 0 :: tail)))) (some done.length)
        (recs0 ++ (targets (tokens 0 done)).flatMap (portals drec)) :=
      .inside rfl hdone hname hs (.inl rfl) (by simp)
    rw [targets_of_none hnone, flatMap_nil, append_nil, append_nil] at hnew
    rw [targets_of_none hnone, endRecord, hbuf]
    exact .inl ⟨rfl, by simp, hnew, done, rfl, by simp⟩
  | @inside pre pre' n ys _ hlen hpre hn hfree hsep hys =>
    obtain ⟨t, rfl⟩ := isTargetName_split hn
    obtain ⟨r, hr⟩ := closed_behind_name hn hfree hdone
    have hterm : Terminated ys (s ++ rest ++ 0 :: tail) := .inl (by rw [hr]; simp)
    have htok := targets_last hpre hn hfree hsep hys
    obtain ⟨recs1, hrecs1⟩ : ∃ recs1,
        recs1 = recs0 ++ (targets (tokens 0 pre)).flatMap (portals drec) := ⟨_, rfl⟩
    obtain ⟨ys', hlen', hadd⟩ := endRecord_target drec hm t ys _ hlen hfree hsep hterm recs1
    have hout : endRecord env drec (pre' ++ (ascii "TargetName=" ++ t ++ (ys ++ (s ++ rest ++ 0 :: tail))))
        (pre ++ (ascii "TargetName=" ++ t ++ ys)).length (some pre.length) recs1 =
        ⟨pre' ++ ascii "TargetName=" ++ (t ++ ys') ++ (s ++ ([] ++ (rest ++ 0 :: tail))),
          recs1 ++ (added env drec ⟨t, tokens 0 ys⟩).1, (added env drec ⟨t, tokens 0 ys⟩).2⟩ := by
      rw [endRecord, hadd]
      simp
    rw [← hrecs1, hout]
    have hfront := (hgood pre.length rfl).2
    rw [take_left] at hfront
    by_cases hacc : Accepted env drec ⟨t, tokens 0 ys⟩
    · left
      have hall : ∀ t' ∈ targets (tokens 0 (pre ++ (ascii "TargetName=" ++ t ++ ys))),
          Accepted env drec t' := by
        rw [htok]
        exact forall_mem_append.mpr ⟨hfront, forall_mem_singleton.mpr hacc⟩
      refine ⟨(added_iff env drec _).mpr hacc, hall, ?_, pre' ++ ascii "TargetName=" ++ (t ++ ys'),
        by simp [hlen, hlen'], by simp⟩
      have hnew : Scanned drec tail recs0 (pre ++ (ascii "TargetName=" ++ t ++ ys) ++ (s ++ [])) rest
          (pre' ++ ascii "TargetName=" ++ (t ++ ys') ++ (s ++ ([] ++ (rest ++ 0 :: tail))))
          (some (pre ++ (ascii "TargetName=" ++ t ++ ys)).length)
          (recs0 ++ (targets (tokens 0 (pre ++ (ascii "TargetName=" ++ t ++ ys)))).flatMap
            (portals drec)) :=
        .inside (by simp [hlen, hlen']) hdone hname hs (.inl rfl) (by simp)
      rw [htok, flatMap_append, ← append_assoc recs0, ← hrecs1, append_nil] at hnew
      rw [added_accepted hacc]
      simpa using hnew
    · right
      refine ⟨Bool.eq_false_iff.mpr (fun h => hacc ((added_iff env drec _).mp h)), ?_⟩
      rw [htok, hrecs1]
      exact ⟨_, _, [], rfl, hfront, hacc, rfl⟩

/-- The targets of a text in which `n` starts a target. -/
theorem targets_from (hpre : Closed pre) (hn : isTargetName n = true) (hfree : NulFree n)
    (hsep : ys = [] ∨ ys.head? = some 0) :
    targets (tokens 0 (pre ++ (n ++ ys))) =
      targets (tokens 0 pre) ++ targets (tokens 0 (n ++ ys)) := by
  rw [hpre.tokens_append, tokens_string_append hfree (isTargetName_ne_nil hn) hsep,
    targets_append hn]

theorem nul_behind (h : rest = [] ∨ rest.head? = some 0) (tail : List UInt8) :
    ∃ X, rest ++ 0 :: tail = 0 :: X := by
  cases rest with
  | nil => exact ⟨tail, rfl⟩
  | cons b rest =>
    obtain rfl : b = 0 := by simpa using h
    exact ⟨rest ++ 0 :: tail, rfl⟩

/-- The first string of what is not yet read. -/
theorem first_string {b : UInt8} {l : List UInt8} (hb : b ≠ 0) :
    ∃ s rest, b :: l = s ++ rest ∧ NulFree s ∧ s ≠ [] ∧ (rest = [] ∨ rest.head? = some 0) := by
  obtain ⟨s, rest, hsplit, hfree, hrest⟩ := split_string (b :: l)
  refine ⟨s, rest, hsplit, hfree, ?_, hrest.imp_right (by rintro ⟨r, rfl⟩; rfl)⟩
  rintro rfl
  rcases hrest with rfl | ⟨r, rfl⟩
  · cases hsplit
  · exact hb (List.cons.inj hsplit).1

/-- The loop reads everything up to the last NUL, unless a target fails. -/
theorem findRecords_scanned (hm : ∀ n, env.calloc n = true) (fuel : Nat)
    (hfuel : rest.length < fuel) (hat : Closed done ∨ rest = [] ∨ rest.head? = some 0)
    (hgood : Checked env drec done record)
    (h : Scanned drec tail recs0 done rest buf record recs) :
    ScanEnd env drec tail recs0 (done ++ rest)
      (findRecords env drec (done ++ rest).length fuel buf done.length record recs) := by
  induction fuel generalizing done rest buf record recs with
  | zero => omega
  | succ fuel ih =>
    obtain ⟨k, rest1, rfl, hrest1⟩ := split_nuls rest
    obtain ⟨front, hfront, hbuf⟩ := h.unread
    have hskip : skip (fun b => b = 0) buf ((done ++ (List.replicate k 0 ++ rest1)).length -
        done.length) done.length = (done ++ List.replicate k (0 : UInt8)).length := by
      have hrun := skip_nuls front (0 :: tail) k hrest1
      rw [hfront] at hrun
      rw [hbuf]
      simpa using hrun
    have hclosed : k = 0 ∨ Closed (done ++ List.replicate k 0) := by
      cases k with
      | succ k => exact .inr (.inr ⟨done ++ List.replicate k 0, by simp [replicate_succ']⟩)
      | zero => exact .inl rfl
    have hclosed1 : rest1 = [] ∨ Closed (done ++ List.replicate k 0) := by
      rcases hclosed with rfl | h0
      · rcases hrest1 with rfl | ⟨b, l, rfl, hb⟩
        · exact .inl rfl
        · rcases hat with h0 | h0 | h0
          · exact .inr (by simpa using h0)
          · cases h0
          · exact absurd (by simpa using h0) hb
      · exact .inr h0
    have h1 := h.nuls
    have hgood1 := hgood.append (List.replicate k 0)
    have hwhole : done ++ (List.replicate k 0 ++ rest1) = (done ++ List.replicate k 0) ++ rest1 := by
      simp
    have hbuf1 : ∃ c, c.length = (done ++ List.replicate k (0 : UInt8)).length ∧
        buf = c ++ (rest1 ++ 0 :: tail) :=
      ⟨front ++ List.replicate k 0, by simp [hfront], by rw [hbuf]; simp⟩
    rw [findRecords]
    dsimp only
    rw [hskip, hwhole]
    have hfuel1 : rest1.length < fuel + 1 := by
      simp only [length_append] at hfuel
      omega
    generalize done ++ List.replicate k (0 : UInt8) = done1 at *
    rcases hrest1 with rfl | ⟨b, l, rfl, hb⟩
    · rw [if_pos (by simp), append_nil]
      exact .inl ⟨rfl, rfl, hgood1, h1⟩
    have hclosed2 : Closed done1 := hclosed1.resolve_left (by simp)
    obtain ⟨s, rest2, hsplit, hs, hne, hrest2⟩ := first_string (l := l) hb
    have hpos : 0 < s.length := length_pos_of_ne_nil hne
    obtain ⟨front1, hfront1, hbuf1⟩ := hbuf1
    rw [hsplit] at h1 hbuf1 hfuel1 ⊢
    obtain ⟨X, hX⟩ := nul_behind hrest2 tail
    rw [append_assoc] at hbuf1
    have hkey : keyAt buf done1.length (ascii "TargetName=") = isTargetName s := by
      rw [keyAt, hbuf1, ← hfront1, hX, stringAt_string _ _ _ hs, isTargetName]
    have hbefore : done1.length ≠ (done1 ++ (s ++ rest2)).length := by
      simp only [length_append]
      omega
    rw [if_neg hbefore, hkey]
    -- the loop goes on behind the string, wherever the record starts now
    have hnext : ∀ (buf2 : List UInt8) (record2 : Option Nat) (recs2 : List NodeRec),
        (∃ c, c.length = done1.length ∧ buf2 = c ++ (s ++ (rest2 ++ 0 :: tail))) →
        Checked env drec (done1 ++ s) record2 →
        Scanned drec tail recs0 (done1 ++ s) rest2 buf2 record2 recs2 →
        ScanEnd env drec tail recs0 (done1 ++ (s ++ rest2))
          (findRecords env drec (done1 ++ (s ++ rest2)).length fuel buf2
            (skip (fun b => b ≠ 0) buf2 ((done1 ++ (s ++ rest2)).length - done1.length)
              done1.length) record2 recs2) := by
      rintro buf2 record2 recs2 ⟨c, hc, hbuf2⟩ hchecked hscan
      have hstep : skip (fun b => b ≠ 0) buf2 ((done1 ++ (s ++ rest2)).length - done1.length)
          done1.length = (done1 ++ s).length := by
        rw [hbuf2, ← hc, skip_string hs c _ (by simp [hc]) (.inr (by rw [hX]; rfl))]
        simp [hc]
      rw [hstep, ← append_assoc]
      refine ih ?_ (.inr hrest2) hchecked hscan
      simp only [length_append] at hfuel1
      omega
    by_cases hname : isTargetName s = true
    · rw [if_pos hname]
      rcases h1.name hm hclosed2 hs hname hgood1 with ⟨hok, hall, hscan, hunread⟩ | ⟨hok, hfail⟩
      · rw [if_pos hok]
        exact hnext _ _ _ hunread (checked_end hall s) hscan
      · rw [if_neg (by rw [hok]; decide)]
        refine .inr ⟨hok, fun X => ?_⟩
        have hall : done1 ++ (s ++ rest2) ++ 0 :: X = done1 ++ (s ++ (rest2 ++ 0 :: X)) := by simp
        obtain ⟨Y, hY⟩ := nul_behind hrest2 X
        rw [hall, targets_from hclosed2 hname hs (.inr (by rw [hY]; rfl))]
        exact hfail.append _
    · rw [if_neg hname]
      exact hnext _ _ _ ⟨_, hfront1, hbuf1⟩ (hgood1.append s)
        (h1.string hclosed2 hs hne (by simpa using hname))

end Scanning

/-! ## The buffer between PDUs -/

/-- The valid bytes of a buffer. -/
def data (s : StrBuffer) : List UInt8 := s.buffer.take s.dataLength

def Fits (s : StrBuffer) : Prop := s.dataLength ≤ s.buffer.length

variable {s : StrBuffer}

theorem data_length (h : Fits s) : (data s).length = s.dataLength :=
  length_take_of_le h

theorem lastNul_le (buf : List UInt8) (n : Nat) : lastNul buf n ≤ n := by
  induction n with
  | zero => exact Nat.le_refl 0
  | succ n ih =>
    rw [lastNul]
    split <;> omega

theorem byteAt_lastNul (buf : List UInt8) (n : Nat) (h : lastNul buf n ≠ 0) :
    byteAt buf (lastNul buf n) = 0 := by
  induction n with
  | zero => exact absurd rfl h
  | succ n ih =>
    rw [lastNul] at h ⊢
    split
    · rename_i hb
      rw [if_pos hb] at h
      exact ih h
    · rename_i hb
      simpa using hb

theorem lastNul_self {buf : List UInt8} {n : Nat} (h : byteAt buf n = 0) : lastNul buf n = n := by
  cases n with
  | zero => rfl
  | succ n => rw [lastNul, if_neg (by simp [h])]

/-- A buffer around one of its NULs. -/
theorem split_at_nul {buf : List UInt8} {n : Nat} (hn : n < buf.length) (h : byteAt buf n = 0) :
    buf = buf.take n ++ 0 :: buf.drop (n + 1) := by
  have hget : buf[n] = 0 := by
    rw [byteAt, getD_eq_getElem _ _ hn] at h
    exact h
  rw [← hget, getElem_cons_drop, take_append_drop]

theorem strEnlargeData_data (h : Fits s) (bytes : List UInt8) :
    let out := strEnlargeData s bytes.length true
    let s' : StrBuffer := { out.1 with buffer := copyIn out.1.buffer s.dataLength bytes }
    out.2 = true ∧ Fits s' ∧ data s' = data s ++ bytes := by
  obtain ⟨buf, hbuf, hlen, hout⟩ : ∃ buf, buf.take s.dataLength = s.buffer.take s.dataLength ∧
      s.dataLength + bytes.length ≤ buf.length ∧
      strEnlargeData s bytes.length true = (⟨buf, s.dataLength + bytes.length⟩, true) := by
    by_cases hroom : s.buffer.length < s.dataLength + bytes.length
    · refine ⟨s.buffer ++ List.replicate (s.dataLength + bytes.length - s.buffer.length) 0, ?_, ?_, ?_⟩
      · rw [take_append_of_le_length h]
      · simp
        omega
      · simp [strEnlargeData, hroom]
    · exact ⟨s.buffer, rfl, by omega, by simp [strEnlargeData, hroom]⟩
  dsimp only
  rw [hout]
  have hfront : (buf.take s.dataLength).length = s.dataLength := length_take_of_le (by omega)
  refine ⟨rfl, ?_, ?_⟩
  · simp only [Fits, copyIn, length_append, hfront, length_drop]
    omega
  · simp only [data, copyIn]
    rw [take_left' (by rw [length_append, hfront]), hbuf]

theorem strRemoveInitial_data (h : Fits s) {length : Nat} (hl : length ≤ s.dataLength) :
    Fits (strRemoveInitial s length) ∧ data (strRemoveInitial s length) = (data s).drop length := by
  by_cases h0 : length = 0
  · rw [strRemoveInitial, if_pos h0, h0]
    exact ⟨h, rfl⟩
  · have hfit : s.dataLength ≤ s.buffer.length := h
    rw [strRemoveInitial, if_neg h0]
    refine ⟨?_, ?_⟩
    · simp only [Fits, length_set, length_append, length_take, length_drop]
      omega
    · simp only [data]
      rw [take_set_of_le (Nat.le_refl _), take_append_of_le_length (by simp; omega),
        take_take, Nat.min_self, drop_take]

/-! ## One PDU -/

section Processing

variable {env : Env} {drec : DiscoveryRec}

/-- A buffer around the NUL that the backward scan finds. -/
theorem nul_split (hfit : Fits s) (hnul : lastNul s.buffer (s.dataLength - 1) ≠ 0) :
    ∃ front tail part, s.buffer = front ++ 0 :: tail ∧ data s = front ++ 0 :: part ∧
      part = tail.take part.length ∧ s.dataLength = front.length + 1 + part.length ∧
      front.length = lastNul s.buffer (s.dataLength - 1) := by
  obtain ⟨n, hn⟩ : ∃ n, n = lastNul s.buffer (s.dataLength - 1) := ⟨_, rfl⟩
  have hle := lastNul_le s.buffer (s.dataLength - 1)
  have hbyte := byteAt_lastNul _ _ hnul
  have hlen : s.dataLength ≤ s.buffer.length := hfit
  rw [← hn] at hle hbyte hnul ⊢
  have hsplit := split_at_nul (by omega) hbyte
  have hfront : (s.buffer.take n).length = n := length_take_of_le (by omega)
  have hpart : ((s.buffer.drop (n + 1)).take (s.dataLength - (n + 1))).length =
      s.dataLength - (n + 1) := by
    simp
    omega
  refine ⟨s.buffer.take n, s.buffer.drop (n + 1),
    (s.buffer.drop (n + 1)).take (s.dataLength - (n + 1)), hsplit, ?_, by rw [hpart],
    by rw [hfront, hpart]; omega, hfront⟩
  have hcount : s.dataLength = (s.buffer.take n).length + ((s.dataLength - (n + 1)) + 1) := by omega
  rw [data]
  conv_lhs => rw [hsplit, hcount]
  rw [take_length_add_append, take_succ_cons]

/-- The loop over a buffer whose last NUL was found. -/
theorem process_scan (hm : ∀ n, env.calloc n = true) (hfit : Fits s)
    (hnul : lastNul s.buffer (s.dataLength - 1) ≠ 0) (recs : List NodeRec) :
    ∃ front tail part, s.buffer = front ++ 0 :: tail ∧ data s = front ++ 0 :: part ∧
      part = tail.take part.length ∧ s.dataLength = front.length + 1 + part.length ∧
      front.length = lastNul s.buffer (s.dataLength - 1) ∧ ScanEnd env drec tail recs front
        (findRecords env drec (lastNul s.buffer (s.dataLength - 1))
          (lastNul s.buffer (s.dataLength - 1) + 1) s.buffer 0 none recs) := by
  obtain ⟨front, tail, part, hbuf, hdata, hpart, hlen, hfront⟩ := nul_split hfit hnul
  have hend := @findRecords_scanned drec tail recs [] front (front ++ 0 :: tail) none recs env hm
    (front.length + 1) (Nat.lt_succ_self _) (.inl (.inl rfl)) (fun n hn => by cases hn)
    (.before (by simp))
  rw [← hfront, hbuf]
  exact ⟨front, tail, part, rfl, hdata, hpart, hlen, rfl, by simpa using hend⟩

/-- What a PDU that is not the last one leaves behind: the complete targets are added and
the buffer keeps the text from the last target on, or a target failed and it keeps nothing. -/
def Taken (env : Env) (drec : DiscoveryRec) (s : StrBuffer) (recs : List NodeRec)
    (r : StrBuffer × List NodeRec) : Prop :=
  Fits r.1 ∧
    ((∃ gone, r.2 = recs ++ (targets (tokens 0 gone)).flatMap (portals drec) ∧
        (∀ t ∈ targets (tokens 0 gone), Accepted env drec t) ∧ data s = gone ++ data r.1 ∧
        ∀ X, targets (tokens 0 (data s ++ X)) =
          targets (tokens 0 gone) ++ targets (tokens 0 (data r.1 ++ X))) ∨
      ∀ X, Failed env drec recs (targets (tokens 0 (data s ++ X))) r.2)

theorem taken_nothing (hfit : Fits s) (recs : List NodeRec) : Taken env drec s recs (s, recs) :=
  ⟨hfit, .inl ⟨[], by simp [targets_nil], by simp [targets_nil], rfl,
    fun X => by simp [targets_nil]⟩⟩

theorem fits_truncated (s : StrBuffer) : Fits (strTruncateBuffer s 0) := by
  unfold strTruncateBuffer Fits
  by_cases h : s.dataLength = 0
  · rw [if_pos h, h]
    exact Nat.zero_le _
  · rw [if_neg h, if_pos (Nat.zero_le _)]
    exact Nat.zero_le _

/-- The buffer from the last target on. -/
theorem taken_inside (hfit : Fits s) {pre' tail part : List UInt8} (recs : List NodeRec)
    (hpl : pre'.length = pre.length) (hpre : Closed pre) (hn : isTargetName n = true)
    (hfree : NulFree n) (hsep : ys = [] ∨ ys.head? = some 0)
    (hacc : ∀ t ∈ targets (tokens 0 pre), Accepted env drec t)
    (hbuf : s.buffer = pre ++ (n ++ ys) ++ 0 :: tail)
    (hdata : data s = pre ++ (n ++ ys) ++ 0 :: part) (hpart : part = tail.take part.length)
    (hlen : s.dataLength = (pre ++ (n ++ ys)).length + 1 + part.length) :
    Taken env drec s recs
      (strRemoveInitial { buffer := pre' ++ (n ++ (ys ++ 0 :: tail)), dataLength := s.dataLength }
        pre.length, recs ++ (targets (tokens 0 pre)).flatMap (portals drec)) := by
  obtain ⟨s1, hs1⟩ : ∃ s1 : StrBuffer, s1 =
    { buffer := pre' ++ (n ++ (ys ++ 0 :: tail)), dataLength := s.dataLength } := ⟨_, rfl⟩
  have hfit1 : Fits s1 := by
    have : s.dataLength ≤ s.buffer.length := hfit
    rw [hbuf] at this
    simp only [hs1, Fits, length_append, length_cons] at this ⊢
    omega
  have hdata1 : data s1 = pre' ++ (n ++ (ys ++ 0 :: part)) := by
    have hcount : s.dataLength = (pre' ++ (n ++ ys)).length + (part.length + 1) := by
      simp only [length_append] at hlen ⊢
      omega
    have hsplit : pre' ++ (n ++ (ys ++ 0 :: tail)) = (pre' ++ (n ++ ys)) ++ 0 :: tail := by simp
    rw [hs1, data]
    dsimp only
    rw [hsplit, hcount, take_length_add_append, take_succ_cons, ← hpart]
    simp
  have hshort : pre.length ≤ s1.dataLength := by
    rw [hs1]
    simp only [length_append] at hlen
    dsimp only
    omega
  obtain ⟨hfit2, hdata2⟩ := strRemoveInitial_data hfit1 hshort
  rw [hdata1, ← hpl, drop_left] at hdata2
  rw [← hs1, ← hpl]
  refine ⟨hpl ▸ hfit2, .inl ⟨pre, rfl, hacc, ?_, fun X => ?_⟩⟩
  · rw [hdata2, hdata]
    simp
  have hbehind : ys ++ 0 :: part ++ X = [] ∨ (ys ++ 0 :: part ++ X).head? = some 0 := by
    obtain ⟨Y, hY⟩ := nul_behind hsep (part ++ X)
    rw [append_assoc, cons_append, hY]
    exact .inr rfl
  have htext : data s ++ X = pre ++ (n ++ (ys ++ 0 :: part ++ X)) := by
    rw [hdata]
    simp
  rw [htext, targets_from hpre hn hfree hbehind, hdata2]
  simp

/-- A PDU that is not the last one. -/
theorem process_partial (hm : ∀ n, env.calloc n = true) (hfit : Fits s) (recs : List NodeRec) :
    Taken env drec s recs (processSendtargetsResponse env drec s false recs) := by
  unfold processSendtargetsResponse
  by_cases hempty : s.dataLength = 0
  · rw [if_pos hempty]
    exact taken_nothing hfit recs
  rw [if_neg hempty]
  dsimp only
  by_cases hnul : lastNul s.buffer (s.dataLength - 1) = 0
  · rw [if_pos hnul]
    exact taken_nothing hfit recs
  rw [if_neg hnul]
  obtain ⟨front, tail, part, hbuf, hdata, hpart, hlen, -, hscan⟩ := process_scan hm hfit hnul recs
  generalize findRecords env drec _ _ _ _ _ _ = scan at hscan ⊢
  obtain ⟨⟨buf', recs', ok⟩, text, record⟩ := scan
  rcases hscan with ⟨hok, -, hchecked, hscan⟩ | ⟨hok, hfail⟩
  · simp only at hok hchecked hscan
    rw [hok]
    simp only [if_true]
    cases hscan with
    | before hnone =>
      have hsame : ({ buffer := front ++ ([] ++ 0 :: tail), dataLength := s.dataLength } : StrBuffer) =
          s := by
        cases s
        simp only at hbuf
        rw [hbuf]
        rfl
      simp only [hsame]
      exact taken_nothing hfit recs
    | @inside pre pre' n ys _ hpl hpre hn hfree hsep hys =>
      have hacc := (hchecked pre.length rfl).2
      rw [take_left] at hacc
      exact taken_inside hfit recs hpl hpre hn hfree hsep hacc hbuf hdata hpart hlen
  · simp only at hok hfail
    rw [hok]
    refine ⟨fits_truncated _, .inr fun X => ?_⟩
    rw [hdata, append_assoc, cons_append]
    exact hfail (part ++ X)

/-- The end of a text is its last NUL. -/
theorem lastNul_closed (hfit : Fits s) {r : List UInt8} (hr : data s = r ++ [0]) :
    lastNul s.buffer (s.dataLength - 1) = s.dataLength - 1 := by
  refine lastNul_self ?_
  have hrl : s.dataLength - 1 = r.length := by
    rw [← data_length hfit, hr]
    simp
  have hbuf : s.buffer = r ++ (0 :: s.buffer.drop s.dataLength) := by
    have := take_append_drop s.dataLength s.buffer
    rw [show s.buffer.take s.dataLength = r ++ [0] from hr] at this
    rw [append_assoc, singleton_append] at this
    exact this.symm
  rw [hrl, hbuf, byteAt_append]
  rfl

/-- What the last PDU adds: all targets that are left, or those up to the first that fails. -/
def Ended (env : Env) (drec : DiscoveryRec) (recs0 : List NodeRec) (ts : List Target)
    (recs : List NodeRec) : Prop :=
  ((∀ t ∈ ts, Accepted env drec t) ∧ recs = recs0 ++ ts.flatMap (portals drec)) ∨
    Failed env drec recs0 ts recs

theorem ended_nothing (recs : List NodeRec) : Ended env drec recs [] recs :=
  .inl ⟨by simp, by simp⟩

/-- One more target behind accepted ones. -/
theorem ended_snoc {front : List Target} {t : Target} {recs recs1 : List NodeRec}
    (hfront : ∀ t ∈ front, Accepted env drec t)
    (hrecs : recs1 = recs ++ front.flatMap (portals drec)) :
    Ended env drec recs (front ++ [t]) (recs1 ++ (added env drec t).1) := by
  by_cases hacc : Accepted env drec t
  · left
    refine ⟨forall_mem_append.mpr ⟨hfront, forall_mem_singleton.mpr hacc⟩, ?_⟩
    rw [hrecs, added_accepted hacc, flatMap_append]
    simp
  · right
    rw [hrecs]
    exact ⟨front, t, [], rfl, hfront, hacc, rfl⟩

/-- The last PDU. -/
theorem process_final (hm : ∀ n, env.calloc n = true) (hfit : Fits s) (recs : List NodeRec)
    (hend : Closed (data s)) :
    Ended env drec recs (targets (tokens 0 (data s)))
      (processSendtargetsResponse env drec s true recs).2 := by
  have hlen := data_length hfit
  unfold processSendtargetsResponse
  by_cases hempty : s.dataLength = 0
  · have hnil : data s = [] := length_eq_zero_iff.mp (hlen.trans hempty)
    rw [if_pos hempty, hnil]
    exact ended_nothing recs
  rw [if_neg hempty]
  dsimp only
  obtain ⟨r, hr⟩ : ∃ r, data s = r ++ [0] := by
    rcases hend with h0 | h0
    · rw [h0] at hlen
      exact absurd hlen.symm hempty
    · exact h0
  have hlast := lastNul_closed hfit hr
  by_cases hnul : lastNul s.buffer (s.dataLength - 1) = 0
  · have hone : r = [] := by
      have := congrArg List.length hr
      rw [hlen, length_append, length_singleton] at this
      exact length_eq_zero_iff.mp (by omega)
    rw [if_pos hnul, hr, hone]
    exact ended_nothing recs
  rw [if_neg hnul]
  obtain ⟨front, tail, part, -, hdata, -, hcount, hfront, hscan⟩ := process_scan hm hfit hnul recs
  obtain rfl : part = [] := length_eq_zero_iff.mp (by omega)
  generalize findRecords env drec _ _ _ _ _ _ = scan at hscan ⊢
  obtain ⟨⟨buf', recs', ok⟩, text, record⟩ := scan
  have htok : tokens 0 (data s) = tokens 0 front := by
    rw [hdata, Tokens.tokens_append, tokens_nil, append_nil]
  rcases hscan with ⟨hok, htext, hchecked, hscan⟩ | ⟨hok, hfail⟩
  · simp only at hok htext hchecked hscan
    rw [hok, htok, htext]
    simp only [if_true]
    cases hscan with
    | before hnone =>
      rw [targets_of_none hnone]
      exact ended_nothing recs
    | @inside pre pre' n ys _ hpl hpre hn hfree hsep hys =>
      have hacc := (hchecked pre.length rfl).2
      rw [take_left] at hacc
      obtain ⟨t, rfl⟩ := isTargetName_split hn
      obtain ⟨ys', -, hadd⟩ := endRecord_target drec hm t ys (0 :: tail) hpl hfree hsep
        (.inr rfl) (recs ++ (targets (tokens 0 pre)).flatMap (portals drec))
      simp only [nil_append]
      rw [hadd, targets_last hpre hn hfree hsep hys]
      exact ended_snoc hacc rfl
  · simp only at hok hfail
    rw [hok]
    exact .inr (by simpa [hdata] using hfail [])

end Processing

/-! ## All PDUs -/

section Runs

variable (env : Env) (drec : DiscoveryRec)

/-- The bytes of a sequence of NUL-terminated strings. -/
def wire (strings : List (List UInt8)) : List UInt8 := strings.flatMap (fun s => s ++ [0])

theorem wire_closed (strings : List (List UInt8)) : Closed (wire strings) := by
  induction strings with
  | nil => exact .inl rfl
  | cons s strings ih => exact Closed.append (.inr ⟨s, rfl⟩) ih

theorem tokens_wire {strings : List (List UInt8)} (h : ∀ s ∈ strings, NulFree s) :
    tokens 0 (wire strings) = strings.filter (fun s => s ≠ []) := by
  induction strings with
  | nil => rfl
  | cons s strings ih =>
    have hwire : wire (s :: strings) = s ++ 0 :: wire strings := by simp [wire]
    rw [hwire, Tokens.tokens_append, ih (fun t ht => h t (by simp [ht])),
      tokens_string (h s (by simp))]
    by_cases hs : s = [] <;> simp [hs]

/-! The list of records only grows. -/

theorem addPortal_grows {recs recs' : List NodeRec} {targetname address : List UInt8}
    {port tag : Option (List UInt8)}
    (h : addPortal env drec recs targetname address port tag = some recs') : recs <+: recs' := by
  unfold addPortal at h
  split at h
  · cases h
  · split at h
    · cases h
    · obtain rfl := Option.some.inj h
      exact prefix_append _ _

theorem addAddress_grows (buf : List UInt8) (name text : Nat) (recs : List NodeRec) :
    recs <+: (addAddress env drec buf name text recs).recs := by
  unfold addAddress
  dsimp only
  split
  · rename_i h
    exact addPortal_grows env drec h
  · exact prefix_refl _

theorem addAddresses_grows (name limit fuel : Nat) (buf : List UInt8) (text : Nat)
    (recs : List NodeRec) : recs <+: (addAddresses env drec name limit fuel buf text recs).recs := by
  induction fuel generalizing buf text recs with
  | zero => exact prefix_refl _
  | succ fuel ih =>
    rw [addAddresses]
    have hone := addAddress_grows env drec buf name text recs
    dsimp only
    split
    · split
      · split
        · exact hone.trans (ih _ _ _)
        · exact hone
      · exact ih _ _ _
    · exact prefix_refl _

theorem addTargetRecord_grows (buf : List UInt8) (name limit : Nat) (recs : List NodeRec) :
    recs <+: (addTargetRecord env drec buf name limit recs).recs := by
  unfold addTargetRecord
  dsimp only
  split
  · exact prefix_refl _
  split
  · split
    · exact prefix_refl _
    · split
      · rename_i h
        exact addPortal_grows env drec h
      · exact prefix_refl _
  · exact addAddresses_grows env drec _ _ _ _ _ _

theorem endRecord_grows (buf : List UInt8) (text : Nat) (record : Option Nat) (recs : List NodeRec) :
    recs <+: (endRecord env drec buf text record recs).recs := by
  cases record with
  | none => exact prefix_refl _
  | some record => exact addTargetRecord_grows env drec _ _ _ _

theorem findRecords_grows (nul fuel : Nat) (buf : List UInt8) (text : Nat) (record : Option Nat)
    (recs : List NodeRec) :
    recs <+: (findRecords env drec nul fuel buf text record recs).out.recs := by
  induction fuel generalizing buf text record recs with
  | zero => exact prefix_refl _
  | succ fuel ih =>
    rw [findRecords]
    dsimp only
    split
    · exact prefix_refl _
    split
    · split
      · exact (endRecord_grows env drec _ _ _ _).trans (ih _ _ _ _)
      · exact endRecord_grows env drec _ _ _ _
    · exact ih _ _ _ _

theorem processSendtargetsResponse_grows (s : StrBuffer) (final : Bool) (recs : List NodeRec) :
    recs <+: (processSendtargetsResponse env drec s final recs).2 := by
  unfold processSendtargetsResponse
  dsimp only
  split
  · exact prefix_refl _
  split
  · exact prefix_refl _
  have hscan := findRecords_grows env drec (lastNul s.buffer (s.dataLength - 1))
    (lastNul s.buffer (s.dataLength - 1) + 1) s.buffer 0 none recs
  split
  · split
    · split
      · exact hscan.trans (addTargetRecord_grows env drec _ _ _ _)
      · exact hscan
    · exact hscan
  · exact hscan

theorem processRecvdPdu_grows (d : Discovery) (pdu : Pdu) :
    d.recs <+: (processRecvdPdu env drec d pdu).recs := by
  unfold processRecvdPdu
  dsimp only
  split
  · split
    · split
      · exact processSendtargetsResponse_grows env drec _ _ _
      · split
        · exact processSendtargetsResponse_grows env drec _ _ _
        · exact processSendtargetsResponse_grows env drec _ _ _
    · exact prefix_refl _
  · exact prefix_refl _

theorem run_grows (d : Discovery) (pdus : List Pdu) :
    d.recs <+: (Runs.run (processRecvdPdu env drec) d pdus).recs := by
  induction pdus generalizing d with
  | nil => exact prefix_refl _
  | cons pdu pdus ih =>
    rw [Runs.run_cons]
    exact (processRecvdPdu_grows env drec d pdu).trans (ih _)

/-- A text response, with memory for its bytes. -/
def Text (pdu : Pdu) : Prop := pdu.opcode = iscsiOpTextRsp ∧ pdu.realloc = true

/-- A text response is appended to the buffer and processed. -/
theorem processRecvdPdu_text {d : Discovery} (hfit : Fits d.sendtargets) {pdu : Pdu}
    (hpdu : Text pdu) :
    ∃ s, Fits s ∧ data s = data d.sendtargets ++ pdu.data ∧
      (processRecvdPdu env drec d pdu).sendtargets =
        (processSendtargetsResponse env drec s pdu.final d.recs).1 ∧
      (processRecvdPdu env drec d pdu).recs =
        (processSendtargetsResponse env drec s pdu.final d.recs).2 := by
  obtain ⟨hok, hfit', hdata⟩ := strEnlargeData_data hfit pdu.data
  refine ⟨_, hfit', hdata, ?_, ?_⟩
  all_goals
    unfold processRecvdPdu
    rw [if_pos hpdu.1, hpdu.2]
    simp only [hok, if_true]
    split
    · rfl
    · split <;> rfl

variable {env : Env} {drec : DiscoveryRec}

/-- The records after any number of PDUs and a last one: all of them were accepted, or the
list starts with the records of those before the first that fails. -/
theorem run_recs (hm : ∀ n, env.calloc n = true) (pdus : List Pdu) (last : Pdu) (d : Discovery)
    (hfit : Fits d.sendtargets) (hpdus : ∀ pdu ∈ pdus, Text pdu ∧ pdu.final = false)
    (hlast : Text last ∧ last.final = true) {text : List UInt8}
    (htext : data d.sendtargets ++ ((pdus.map Pdu.data).flatten ++ last.data) = text)
    (hend : Closed text) :
    ∃ recs, recs <+: (Runs.run (processRecvdPdu env drec) d (pdus ++ [last])).recs ∧
      Ended env drec d.recs (targets (tokens 0 text)) recs ∧
      ((∀ t ∈ targets (tokens 0 text), Accepted env drec t) →
        recs = (Runs.run (processRecvdPdu env drec) d (pdus ++ [last])).recs) := by
  induction pdus generalizing d text with
  | nil =>
    obtain ⟨s, hfit', hdata, -, hrecs⟩ := processRecvdPdu_text env drec hfit hlast.1
    simp only [map_nil, flatten_nil, nil_append] at htext
    rw [← htext, ← hdata] at hend ⊢
    rw [nil_append, Runs.run_cons, Runs.run_nil, hrecs, hlast.2]
    exact ⟨_, prefix_refl _, process_final hm hfit' d.recs hend, fun _ => rfl⟩
  | cons pdu pdus ih =>
    obtain ⟨hpdu, hrest⟩ := forall_mem_cons.mp hpdus
    obtain ⟨s, hfit', hdata, hbuf, hrecs⟩ :=
      processRecvdPdu_text env drec hfit hpdu.1
    obtain rfl : data s ++ ((pdus.map Pdu.data).flatten ++ last.data) = text := by
      rw [← htext, hdata]
      simp
    have htaken : Taken env drec s d.recs (processSendtargetsResponse env drec s false d.recs) :=
      process_partial hm hfit' d.recs
    rw [hpdu.2] at hbuf hrecs
    rw [cons_append, Runs.run_cons]
    obtain ⟨hfit2, ⟨gone, hgone, hacc, hsplit, htargets⟩ | hfail⟩ := htaken
    · rw [← hbuf] at hfit2 hsplit htargets
      rw [← hrecs] at hgone
      rw [hsplit, append_assoc] at hend
      obtain ⟨recs, hpre, hended, heq⟩ :=
        ih (processRecvdPdu env drec d pdu) hfit2 hrest rfl hend.behind
      rw [htargets]
      refine ⟨recs, hpre, ?_, fun hall => heq fun t ht => hall t (mem_append.mpr (.inr ht))⟩
      rcases hended with ⟨hall, hrun⟩ | hfail
      · refine .inl ⟨forall_mem_append.mpr ⟨hacc, hall⟩, ?_⟩
        rw [hrun, hgone, flatMap_append, append_assoc]
      · rw [hgone] at hfail
        exact .inr (hfail.behind hacc)
    · have hfailed := hfail ((pdus.map Pdu.data).flatten ++ last.data)
      rw [← hrecs] at hfailed
      exact ⟨_, run_grows env drec _ _, .inr hfailed, fun hall => (hfailed.not_all hall).elim⟩

/-- The records after any number of PDUs and a last one, when every target is accepted. -/
theorem run_accepted (hm : ∀ n, env.calloc n = true) (pdus : List Pdu) (last : Pdu) (d : Discovery)
    (hfit : Fits d.sendtargets) (hpdus : ∀ pdu ∈ pdus, Text pdu ∧ pdu.final = false)
    (hlast : Text last ∧ last.final = true) {text : List UInt8}
    (htext : data d.sendtargets ++ ((pdus.map Pdu.data).flatten ++ last.data) = text)
    (hend : Closed text) (hacc : ∀ t ∈ targets (tokens 0 text), Accepted env drec t) :
    (Runs.run (processRecvdPdu env drec) d (pdus ++ [last])).recs =
      d.recs ++ (targets (tokens 0 text)).flatMap (portals drec) := by
  obtain ⟨recs, -, hended, heq⟩ := run_recs hm pdus last d hfit hpdus hlast htext hend
  rcases hended with ⟨-, hrecs⟩ | hfail
  · rw [← heq hacc, hrecs]
  · exact (hfail.not_all hacc).elim

end Runs

/-- However the text of a SendTargets response is cut into PDUs, the records added
are those added when it arrives in one PDU: the portals of its targets, once each. -/
theorem sendtargets_reassembly (env : Env) (drec : DiscoveryRec) (hm : ∀ n, env.calloc n = true)
    (strings : List (List UInt8)) (hstrings : ∀ s ∈ strings, NulFree s)
    (hacc : ∀ t ∈ targets (strings.filter (fun s => s ≠ [])), Accepted env drec t)
    (pdus : List Pdu) (last whole : Pdu)
    (hpdus : ∀ pdu ∈ pdus, Text pdu ∧ pdu.final = false)
    (hlast : Text last ∧ last.final = true) (hwhole : Text whole ∧ whole.final = true)
    (hcut : (pdus.map Pdu.data).flatten ++ last.data = wire strings)
    (hone : whole.data = wire strings) (d : Discovery) (hd : d.sendtargets.dataLength = 0) :
    (Runs.run (processRecvdPdu env drec) d (pdus ++ [last])).recs =
        (processRecvdPdu env drec d whole).recs ∧
      (Runs.run (processRecvdPdu env drec) d (pdus ++ [last])).recs =
        d.recs ++ (targets (strings.filter (fun s => s ≠ []))).flatMap (portals drec) := by
  have hfit : Fits d.sendtargets := by
    rw [Fits, hd]
    exact Nat.zero_le _
  have hempty : data d.sendtargets = [] := by rw [data, hd, take_zero]
  rw [← tokens_wire hstrings] at hacc ⊢
  have hcuts := run_accepted hm pdus last d hfit hpdus hlast (by rw [hempty, hcut]; rfl)
    (wire_closed strings) hacc
  have hall := run_accepted hm [] whole d hfit (by simp) hwhole (by rw [hempty, ← hone]; rfl)
    (wire_closed strings) hacc
  exact ⟨hcuts.trans hall.symm, hcuts⟩

/-- A resolver that knows every address, and memory. -/
def sampleEnv : Env := ⟨fun _ _ => true, fun _ => true⟩

def sampleDrec : DiscoveryRec := ⟨.sendtargets, ascii "10.0.0.1", 3260⟩

def sampleStrings : List (List UInt8) :=
  [ascii "TargetName=a", ascii "TargetAddress=10.0.0.2:3260,1", ascii "TargetName=b"]

/-- A cut inside the second key. -/
theorem sendtargets_reassembly_sample :
    (Runs.run (processRecvdPdu sampleEnv sampleDrec) {}
      ([⟨iscsiOpTextRsp, 0, 1, (wire sampleStrings).take 20, true, true⟩] ++
        [⟨iscsiOpTextRsp, iscsiFlagCmdFinal, 1, (wire sampleStrings).drop 20, true, true⟩])).recs =
      (processRecvdPdu sampleEnv sampleDrec {}
        ⟨iscsiOpTextRsp, iscsiFlagCmdFinal, 1, wire sampleStrings, true, true⟩).recs := by
  refine (sendtargets_reassembly sampleEnv sampleDrec (fun _ => rfl) sampleStrings ?_ ?_ _ _ _ ?_
    ⟨⟨rfl, rfl⟩, by decide⟩ ⟨⟨rfl, rfl⟩, by decide⟩ ?_ rfl {} rfl).1
  · decide +kernel
  · have htargets : targets (sampleStrings.filter (fun s => s ≠ [])) =
        [⟨ascii "a", [ascii "TargetAddress=10.0.0.2:3260,1"]⟩, ⟨ascii "b", []⟩] := by
      decide +kernel
    rw [htargets]
    intro t ht
    refine ⟨?_, fun _ _ _ => rfl, fun _ => ⟨by decide, rfl⟩⟩
    rcases mem_cons.mp ht with rfl | ht
    · decide
    · rw [mem_singleton.mp ht]
      decide
  · intro pdu hpdu
    rw [mem_singleton.mp hpdu]
    exact ⟨⟨rfl, rfl⟩, by decide⟩
  · simp [take_append_drop]

end SendTargetsPdus
