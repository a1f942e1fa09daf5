import OpenIscsi.Lib.RecordFile

/-! # Portal texts

The portal that `idbm_print_node_flat` prints in front of the name of a target, and
`str_to_ipport`, which reads a portal from the command line. -/

namespace PortalText

open CString RecordFile List

/-! ### Printing and reading -/

/-- `idbm_print_node_flat`, up to the space: an address without a dot stands in brackets. -/
def portalText (address : List UInt8) (port tpgt : Int) : List UInt8 :=
  if 46 ∈ cstr address then cstr address ++ 58 :: (printInt port ++ 44 :: printInt tpgt)
  else 91 :: cstr address ++ 93 :: 58 :: (printInt port ++ 44 :: printInt tpgt)

def idbmPrintNodeFlat (address : List UInt8) (port tpgt : Int) (name : List UInt8) : List UInt8 :=
  portalText address port tpgt ++ 32 :: cstr name ++ [10]

def portalGroupTagUnknown : Int := -1

/-- The pointers of `str_to_ipport` once it has looked for brackets. -/
structure Cut where
  /-- The text from `ip` to `str`. -/
  front : List UInt8
  /-- The string of `ip` goes on at `str`; else it was ended at a bracket. -/
  joined : Bool
  /-- `sport` is not `NULL`. -/
  sport : Bool
  str : List UInt8
  deriving DecidableEq, Repr

/-- The string of `ip` when `str` is ended after `before`. -/
def Cut.ip (c : Cut) (before : List UInt8) : List UInt8 :=
  if c.joined then c.front ++ before else c.front

/-- The first part of `str_to_ipport`. -/
def findHost (text : List UInt8) : Option Cut :=
  if 46 ∈ text then some ⟨[], true, true, text⟩
  else if text.head? = some 91 then
    (splitFirst 93 text).map fun (before, after) => ⟨before.tail, false, true, after⟩
  else
    match splitFirst 58 text with
    | some (before, after) =>
      -- more than one colon: an IPv6 address
      if 58 ∈ after then some ⟨[], true, false, text⟩ else some ⟨before, true, true, 58 :: after⟩
    | none => some ⟨[], true, false, text⟩

def findTag (str : List UInt8) : List UInt8 × Int :=
  match splitFirst 44 str with
  | some (before, after) => (before, toInt32 (strtoul 10 after).1)
  | none => (str, portalGroupTagUnknown)

def strToIpport (s : List UInt8) (port : Int) : Option (List UInt8 × Int × Int) :=
  (findHost (cstr s)).map fun c =>
    match if c.sport then splitFirst 58 c.str else none with
    | some (before, after) =>
      (c.ip before, toInt32 (strtoul 10 after).1, (findTag after).2)
    | none => (c.ip (findTag c.str).1, port, (findTag c.str).2)

/-! ### Text functions -/

theorem splitFirst_append {c : UInt8} {s : List UInt8} (t : List UInt8) (h : c ∉ s) :
    splitFirst c (s ++ c :: t) = some (s, t) := by
  induction s with
  | nil => simp [splitFirst]
  | cons b s ih =>
    rw [mem_cons, not_or] at h
    rw [cons_append, splitFirst, if_neg (Ne.symm h.1), ih h.2]
    rfl

theorem strtoul_decimal_append {n : Nat} (hn : n < ulongBound) {t : List UInt8} (ht : NulFree t)
    (hstop : digits 10 t n = (n, t)) : (strtoul 10 (decimal n ++ t)).1 = n := by
  have hfree : NulFree (decimal n ++ t) := by
    intro b hb
    rcases mem_append.1 hb with h | h
    · exact decimal_nulFree n b h
    · exact ht b h
  have hdigits : digits 10 (decimal n ++ t) 0 = (n, t) := (digits_decimal t n).trans hstop
  have hsplit := splitSign_decimal n t
  cases hd : decimal n with
  | nil => exact absurd hd (decimal_ne_nil n)
  | cons b rest =>
    have hhead := decimal_head hd
    rw [hd, cons_append] at hsplit hdigits hfree
    rw [cons_append, strtoul, cstr_of_nulFree _ hfree, hsplit]
    simp only [resolveBase_ten, hhead, hdigits]
    rw [if_neg (by decide), if_neg (by omega)]
    rfl

theorem printInt_bytes (n : Int) : ∀ b ∈ printInt n, b = 45 ∨ (48 ≤ b.toNat ∧ b.toNat ≤ 57) := by
  intro b hb
  unfold printInt at hb
  split at hb
  · rcases mem_cons.1 hb with h | h
    · exact .inl h
    · exact .inr (decimal_digits _ b h)
  · exact .inr (decimal_digits _ b hb)

theorem printInt_nulFree (n : Int) : NulFree (printInt n) := by
  intro b hb h
  rcases printInt_bytes n b hb with rfl | hd
  · exact absurd h (by decide)
  · rw [h] at hd
    exact absurd hd.1 (by decide)

theorem not_mem_printInt {c : UInt8} (h : c ≠ 45) (hd : c.toNat < 48 ∨ 57 < c.toNat) (n : Int) :
    c ∉ printInt n := by
  intro hc
  rcases printInt_bytes n c hc with h' | h'
  · exact h h'
  · omega

/-- The numbers behind the address. -/
def numbers (port tpgt : Int) : List UInt8 := printInt port ++ 44 :: printInt tpgt

theorem numbers_nulFree (port tpgt : Int) : NulFree (numbers port tpgt) := by
  intro b hb
  rcases mem_append.1 hb with h | h
  · exact printInt_nulFree _ b h
  · rcases mem_cons.1 h with rfl | h
    · decide
    · exact printInt_nulFree _ b h

theorem dot_not_mem_numbers (port tpgt : Int) : 46 ∉ numbers port tpgt := by
  have hport := not_mem_printInt (c := 46) (by decide) (by decide) port
  have htag := not_mem_printInt (c := 46) (by decide) (by decide) tpgt
  simp [numbers, hport, htag]

/-- The port and the tag are read back from the numbers. -/
theorem findTag_numbers (port : Int) {tpgt : Int} (hlo : -(2 ^ 31) ≤ tpgt) (hhi : tpgt < 2 ^ 31) :
    (findTag (numbers port tpgt)).2 = tpgt := by
  have hport := not_mem_printInt (c := 44) (by decide) (by decide) port
  rw [findTag, numbers, splitFirst_append _ hport]
  exact toInt32_strtoul_printInt hlo hhi

theorem strtoul_numbers {port : Int} (tpgt : Int) (hlo : 1 ≤ port) (hhi : port ≤ 65535) :
    toInt32 (strtoul 10 (numbers port tpgt)).1 = port := by
  have hprint : printInt port = decimal port.toNat := if_neg (by omega)
  have hfree : NulFree (44 :: printInt tpgt) := by
    intro b hb
    rcases mem_cons.1 hb with rfl | h
    · decide
    · exact printInt_nulFree _ b h
  have hval := strtoul_decimal_append (n := port.toNat) (by unfold ulongBound; omega) hfree rfl
  rw [numbers, hprint, hval]
  exact toInt32_nat (by omega) (by omega)

/-! ### The round trip -/

/-- A dotted address is printed as it stands, so the first colon must be that of the port; any
other address is printed in brackets, so the first closing one must be that of the printer. -/
def Legible (address : List UInt8) : Prop :=
  if 46 ∈ cstr address then 58 ∉ cstr address else 93 ∉ cstr address

instance (address : List UInt8) : Decidable (Legible address) := by
  unfold Legible
  infer_instance

variable {address : List UInt8} {port tpgt : Int}

theorem cstr_portalText (address : List UInt8) (port tpgt : Int) :
    cstr (portalText address port tpgt) = portalText address port tpgt := by
  have haddr := cstr_nulFree address
  have hnum := numbers_nulFree port tpgt
  apply cstr_of_nulFree
  intro b hb
  unfold portalText at hb
  split at hb
  · rcases mem_append.1 hb with h | h
    · exact haddr b h
    · rcases mem_cons.1 h with rfl | h
      · decide
      · exact hnum b h
  · rcases mem_append.1 hb with h | h
    · rcases mem_cons.1 h with rfl | h
      · decide
      · exact haddr b h
    · rcases mem_cons.1 h with rfl | h
      · decide
      · rcases mem_cons.1 h with rfl | h
        · decide
        · exact hnum b h

/-- A dotted address is searched for the colon of the port from its start. -/
theorem findHost_dotted (h : 46 ∈ cstr address) :
    findHost (portalText address port tpgt) =
      some ⟨[], true, true, cstr address ++ 58 :: numbers port tpgt⟩ := by
  have htext : portalText address port tpgt = cstr address ++ 58 :: numbers port tpgt := if_pos h
  rw [htext, findHost, if_pos (mem_append_left _ h)]

/-- In brackets, the address ends at the first closing one. -/
theorem findHost_bracketed (h : 46 ∉ cstr address) :
    findHost (portalText address port tpgt) =
      (splitFirst 93 (91 :: cstr address ++ 93 :: 58 :: numbers port tpgt)).map
        fun (before, after) => ⟨before.tail, false, true, after⟩ := by
  have htext : portalText address port tpgt =
      91 :: cstr address ++ 93 :: 58 :: numbers port tpgt := if_neg h
  have hdot : 46 ∉ 91 :: cstr address ++ 93 :: 58 :: numbers port tpgt := by
    simp [h, dot_not_mem_numbers]
  rw [htext, findHost, if_neg hdot]
  rfl

theorem strToIpport_of_legible (h : Legible address) (hport : 1 ≤ port ∧ port ≤ 65535)
    (htag : -(2 ^ 31) ≤ tpgt ∧ tpgt < 2 ^ 31) (old : Int) :
    strToIpport (portalText address port tpgt) old = some (cstr address, port, tpgt) := by
  have hp := strtoul_numbers tpgt hport.1 hport.2
  have ht := findTag_numbers port htag.1 htag.2
  unfold Legible at h
  rw [strToIpport, cstr_portalText]
  by_cases hdot : 46 ∈ cstr address
  · rw [if_pos hdot] at h
    simp [findHost_dotted hdot, splitFirst_append _ h, hp, ht, Cut.ip]
  · rw [if_neg hdot] at h
    have hclose : 93 ∉ 91 :: cstr address := by simp [h]
    have hcolon := splitFirst_append (c := 58) (numbers port tpgt) (not_mem_nil (a := 58))
    rw [nil_append] at hcolon
    simp only [findHost_bracketed hdot, splitFirst_append _ hclose, Option.map_some, if_true,
      hcolon, hp, ht, Cut.ip]
    simp

/-- The address is cut short at the byte that stands in it. -/
theorem ne_of_first {c : UInt8} {before after : List UInt8} :
    before ≠ before ++ c :: after := by
  intro h
  have := congrArg List.length h
  simp at this

theorem legible_of_strToIpport (old : Int)
    (h : strToIpport (portalText address port tpgt) old = some (cstr address, port, tpgt)) :
    Legible address := by
  unfold Legible
  rw [strToIpport, cstr_portalText] at h
  by_cases hdot : 46 ∈ cstr address
  · rw [if_pos hdot]
    intro hcolon
    obtain ⟨before, after, heq, hfree⟩ := eq_append_cons_of_mem hcolon
    rw [findHost_dotted hdot, heq, append_assoc, cons_append] at h
    simp only [Option.map_some, if_true, splitFirst_append _ hfree, Cut.ip, nil_append,
      Option.some.injEq, Prod.mk.injEq] at h
    exact ne_of_first h.1
  · rw [if_neg hdot]
    intro hclose
    obtain ⟨before, after, heq, hfree⟩ := eq_append_cons_of_mem hclose
    have hfree' : 93 ∉ 91 :: before := by simp [hfree]
    have htext : 91 :: (before ++ 93 :: after) ++ 93 :: 58 :: numbers port tpgt =
        (91 :: before) ++ 93 :: (after ++ 93 :: 58 :: numbers port tpgt) := by simp
    rw [findHost_bracketed hdot, heq, htext, splitFirst_append _ hfree', Option.map_some,
      Option.map_some] at h
    have hip := congrArg (Option.map Prod.fst) h
    simp only [Option.map_some, if_true, Cut.ip, tail_cons] at hip
    split at hip
    · exact ne_of_first (Option.some.inj hip)
    · exact ne_of_first (Option.some.inj hip)

/-- The portal that is printed is read back exactly if its address is legible. -/
theorem portal_round_trip_iff (address : List UInt8) (port tpgt old : Int)
    (hport : 1 ≤ port ∧ port ≤ 65535) (htag : -(2 ^ 31) ≤ tpgt ∧ tpgt < 2 ^ 31) :
    strToIpport (portalText address port tpgt) old = some (cstr address, port, tpgt) ↔
      (46 ∈ cstr address → 58 ∉ cstr address) ∧ (46 ∉ cstr address → 93 ∉ cstr address) := by
  have hiff : Legible address ↔
      (46 ∈ cstr address → 58 ∉ cstr address) ∧ (46 ∉ cstr address → 93 ∉ cstr address) := by
    unfold Legible
    by_cases hdot : 46 ∈ cstr address <;> simp [hdot]
  rw [← hiff]
  constructor
  · exact legible_of_strToIpport old
  · intro h
    exact strToIpport_of_legible h hport htag old

/-- An address with a scope, and no tag. -/
theorem portal_round_trip_scoped :
    strToIpport (portalText (ascii "fe80::1%eth0") 3260 (-1)) 3260 =
      some (cstr (ascii "fe80::1%eth0"), 3260, -1) :=
  (portal_round_trip_iff (ascii "fe80::1%eth0") 3260 (-1) 3260 (by decide) (by decide)).2
    (by decide)

/-- An IPv4-mapped address is printed without brackets and cut at its own first colon. -/
theorem portal_mapped_cut :
    portalText (ascii "::ffff:10.0.0.1") 3260 1 = ascii "::ffff:10.0.0.1:3260,1" ∧
      strToIpport (portalText (ascii "::ffff:10.0.0.1") 3260 1) 3260 ≠
        some (ascii "::ffff:10.0.0.1", 3260, 1) := by decide

end PortalText
