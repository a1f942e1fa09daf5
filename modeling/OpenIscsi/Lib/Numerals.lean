import OpenIscsi.Lib.CString

/-!
# Which texts `strtoul` takes to the end

A numeral is a nonempty row of digits. `strtoul` also reads past blanks, a sign
and, in base 16, a second `0x` in front of the digits; `Reads` is the language
of all texts it takes to the end, with the value it returns for each of them.
-/

namespace Numerals

open CString List

def AllDigits (base : Nat) (s : List UInt8) : Prop := ∀ b ∈ s, (digitIn base b).isSome = true

instance (base : Nat) (s : List UInt8) : Decidable (AllDigits base s) :=
  inferInstanceAs (Decidable (∀ b ∈ s, (digitIn base b).isSome = true))

/-- Positional value of a row of digits behind the value read so far. -/
def valueFrom (base : Nat) (acc : Nat) (s : List UInt8) : Nat :=
  s.foldl (fun n b => n * base + (digitIn base b).getD 0) acc

/-- A nonempty row of digits, as a number. -/
def numeral (base : Nat) (s : List UInt8) : Option Nat :=
  if s ≠ [] ∧ AllDigits base s then some (valueFrom base 0 s) else none

variable {s : List UInt8} {base : Nat}

theorem numeral_eq_some {n : Nat} :
    numeral base s = some n ↔ s ≠ [] ∧ AllDigits base s ∧ n = valueFrom base 0 s := by
  unfold numeral
  constructor
  · intro h
    split at h
    · rename_i hs
      exact ⟨hs.1, hs.2, (Option.some.inj h).symm⟩
    · exact nomatch h
  · rintro ⟨hne, hall, rfl⟩
    rw [if_pos ⟨hne, hall⟩]

/-- The digit loop runs through a row of digits. -/
theorem digits_allDigits (h : AllDigits base s) (acc : Nat) :
    digits base s acc = (valueFrom base acc s, []) := by
  induction s generalizing acc with
  | nil => rfl
  | cons b s ih =>
    obtain ⟨d, hd⟩ := Option.isSome_iff_exists.1 (h b mem_cons_self)
    have hs : AllDigits base s := fun c hc => h c (mem_cons_of_mem b hc)
    rw [digits, hd]
    dsimp only
    rw [ih hs]
    simp only [valueFrom, foldl_cons, hd, Option.getD_some]

theorem allDigits_of_digits {acc : Nat} (h : (digits base s acc).2 = []) : AllDigits base s := by
  induction s generalizing acc with
  | nil => exact forall_mem_nil _
  | cons b s ih =>
    rw [digits] at h
    split at h
    · rename_i d hd
      intro c hc
      rcases mem_cons.1 hc with rfl | hc
      · rw [hd]
        rfl
      · exact ih h c hc
    · cases h

/-! ## What stands in front of the digits -/

variable {b : UInt8}

/-- No digit is a blank, a sign, a comma, a NUL or the letter of a prefix. -/
theorem digit_plain (hb : base ≤ 16) (h : (digitIn base b).isSome = true) :
    isSpace b = false ∧ b ≠ 0 ∧ b ≠ 43 ∧ b ≠ 44 ∧ b ≠ 45 ∧ b ≠ 88 ∧ b ≠ 120 := by
  have hall : ∀ k : Fin 256, (digitIn 16 (UInt8.ofNat k.val)).isSome = true →
      isSpace (UInt8.ofNat k.val) = false ∧ UInt8.ofNat k.val ≠ 0 ∧ UInt8.ofNat k.val ≠ 43 ∧
        UInt8.ofNat k.val ≠ 44 ∧ UInt8.ofNat k.val ≠ 45 ∧ UInt8.ofNat k.val ≠ 88 ∧
        UInt8.ofNat k.val ≠ 120 := by decide +kernel
  have h16 : (digitIn 16 b).isSome = true := by
    unfold digitIn at h ⊢
    cases hv : digitVal b with
    | none =>
      rw [hv] at h
      exact nomatch h
    | some d =>
      rw [hv] at h
      dsimp only at h ⊢
      split at h
      · rw [if_pos (by omega)]
        rfl
      · exact nomatch h
  have hk := hall ⟨b.toNat, b.toNat_lt⟩
  simp only [UInt8.ofNat_toNat] at hk
  exact hk h16

/-- The signs `strtoul` skips. -/
def signs : List (List UInt8) := [[], [43], [45]]

/-- The second prefix it skips, in base 16 only. -/
def Skipped (base : Nat) (pre : List UInt8) : Prop :=
  pre = [] ∨ base = 16 ∧ (pre = [48, 120] ∨ pre = [48, 88])

/-- The value `strtoul` makes of a numeral behind a sign. -/
def signedValue (neg : Bool) (n : Nat) : Nat :=
  if ulongBound ≤ n then ulongBound - 1 else if neg then (ulongBound - n) % ulongBound else n

def Reads (base : Nat) (s : List UInt8) (v : Nat) : Prop :=
  ∃ blanks sign pre body n, s = blanks ++ (sign ++ (pre ++ body)) ∧
    (∀ b ∈ blanks, isSpace b = true) ∧ sign ∈ signs ∧ Skipped base pre ∧
    numeral base body = some n ∧ v = signedValue (sign == [45]) n

theorem splitSign_eq (t : List UInt8) :
    ∃ sign ∈ signs, t = sign ++ (splitSign t).2 ∧ (splitSign t).1 = (sign == [45]) := by
  unfold splitSign
  split
  · exact ⟨[45], by decide, rfl, rfl⟩
  · exact ⟨[43], by decide, rfl, rfl⟩
  · exact ⟨[], by decide, rfl, rfl⟩

theorem dropHexPrefix_eq {t u : List UInt8} (h : dropHexPrefix t = some u) :
    t = [48, 120] ++ u ∨ t = [48, 88] ++ u := by
  unfold dropHexPrefix at h
  split at h
  · rename_i x d s
    split at h
    · rename_i hx
      obtain rfl := Option.some.inj h
      rcases hx.1 with rfl | rfl
      · exact Or.inl rfl
      · exact Or.inr rfl
    · exact nomatch h
  · exact nomatch h

theorem resolveBase_eq (hb : base = 10 ∨ base = 16) (t : List UInt8) :
    ∃ pre, Skipped base pre ∧ t = pre ++ (resolveBase base t).2 ∧ (resolveBase base t).1 = base := by
  rcases hb with rfl | rfl
  · rw [resolveBase_ten]
    exact ⟨[], Or.inl rfl, rfl, rfl⟩
  · unfold resolveBase
    cases hd : dropHexPrefix t with
    | none => exact ⟨[], Or.inl rfl, rfl, rfl⟩
    | some u =>
      rcases dropHexPrefix_eq hd with h | h
      · exact ⟨[48, 120], Or.inr ⟨rfl, Or.inl rfl⟩, h, rfl⟩
      · exact ⟨[48, 88], Or.inr ⟨rfl, Or.inr rfl⟩, h, rfl⟩

variable {body : List UInt8}

/-- A numeral has no prefix to drop: its second character would be a letter. -/
theorem dropHexPrefix_digits (hb : base ≤ 16) (h : AllDigits base body) :
    dropHexPrefix body = none := by
  unfold dropHexPrefix
  split
  · rename_i x d s
    have hx := digit_plain hb (h x (by simp))
    rw [if_neg]
    rintro ⟨hx' | hx', _⟩
    · exact hx.2.2.2.2.2.2 hx'
    · exact hx.2.2.2.2.2.1 hx'
  · rfl

theorem resolveBase_skipped (hb : base = 10 ∨ base = 16) {pre : List UInt8}
    (hpre : Skipped base pre) (hne : body ≠ []) (hbody : AllDigits base body) :
    resolveBase base (pre ++ body) = (base, body) := by
  have hle : base ≤ 16 := by omega
  rcases hpre with rfl | ⟨rfl, hpre⟩
  · unfold resolveBase
    rw [nil_append, dropHexPrefix_digits hle hbody]
    dsimp only
    rw [if_neg (by omega)]
  · cases body with
    | nil => exact absurd rfl hne
    | cons d body =>
      have hd := hbody d mem_cons_self
      have hdrop : dropHexPrefix (pre ++ d :: body) = some (d :: body) := by
        rcases hpre with rfl | rfl
        · simp only [cons_append, nil_append, dropHexPrefix]
          rw [if_pos ⟨Or.inl trivial, hd⟩]
        · simp only [cons_append, nil_append, dropHexPrefix]
          rw [if_pos ⟨Or.inr trivial, hd⟩]
      unfold resolveBase
      rw [hdrop]
      rfl

/-- What follows a sign is neither blank nor a sign. -/
theorem skipped_head (hb : base ≤ 16) {pre : List UInt8} (hpre : Skipped base pre) (hne : body ≠ [])
    (hbody : AllDigits base body) :
    ∃ b rest, pre ++ body = b :: rest ∧ isSpace b = false ∧ b ≠ 43 ∧ b ≠ 45 := by
  rcases hpre with rfl | ⟨_, rfl | rfl⟩
  · cases body with
    | nil => exact absurd rfl hne
    | cons d body =>
      have hd := digit_plain hb (hbody d mem_cons_self)
      exact ⟨d, body, rfl, hd.1, hd.2.2.1, hd.2.2.2.2.1⟩
  · exact ⟨48, 120 :: body, rfl, by decide, by decide, by decide⟩
  · exact ⟨48, 88 :: body, rfl, by decide, by decide, by decide⟩

theorem splitSign_sign {sign : List UInt8} (hs : sign ∈ signs) {rest : List UInt8} (h43 : b ≠ 43)
    (h45 : b ≠ 45) :
    splitSign (sign ++ b :: rest) = (sign == [45], b :: rest) := by
  simp only [signs, mem_cons, not_mem_nil, or_false] at hs
  rcases hs with rfl | rfl | rfl
  · rw [nil_append]
    unfold splitSign
    split
    · rename_i heq
      exact absurd (List.cons.inj heq).1 h45
    · rename_i heq
      exact absurd (List.cons.inj heq).1 h43
    · rfl
  · rfl
  · rfl

theorem dropWhile_blanks {blanks : List UInt8} (h : ∀ b ∈ blanks, isSpace b = true)
    {sign : List UInt8} (hs : sign ∈ signs) {rest : List UInt8} (hb : isSpace b = false) :
    (blanks ++ (sign ++ b :: rest)).dropWhile isSpace = sign ++ b :: rest := by
  rw [dropWhile_append_of_pos h]
  simp only [signs, mem_cons, not_mem_nil, or_false] at hs
  rcases hs with rfl | rfl | rfl
  · rw [nil_append, dropWhile_cons_of_neg (by rw [hb]; decide)]
  · rfl
  · rfl

/-- The language of `strtoul` over nonempty texts, with its values. -/
theorem strtoul_eq_iff_reads (hb : base = 10 ∨ base = 16) (hs : NulFree s) (hne : s ≠ []) (v : Nat) :
    strtoul base s = (v, []) ↔ Reads base s v := by
  have hle : base ≤ 16 := by omega
  constructor
  · intro h
    obtain ⟨sign, hsign, hsplit, hneg⟩ := splitSign_eq (s.dropWhile isSpace)
    obtain ⟨pre, hpre, hbody, hbase⟩ := resolveBase_eq hb (splitSign (s.dropWhile isSpace)).2
    have hcut : s = s.takeWhile isSpace ++ s.dropWhile isSpace := takeWhile_append_dropWhile.symm
    unfold strtoul at h
    simp only [cstr_of_nulFree s hs, hneg, hbase] at h
    split at h
    · exact absurd (congrArg Prod.snd h) hne
    · rename_i d rest hcons
      rw [hcons] at hbody h
      split at h
      · exact absurd (congrArg Prod.snd h) hne
      · have hend : (digits base (d :: rest) 0).2 = [] := by
          split at h
          · exact congrArg Prod.snd h
          · split at h
            · exact congrArg Prod.snd h
            · exact congrArg Prod.snd h
        have hall := allDigits_of_digits hend
        have hval : v = signedValue (sign == [45]) (valueFrom base 0 (d :: rest)) := by
          rw [digits_allDigits hall] at h
          unfold signedValue
          split at h
          · rename_i hover
            rw [if_pos hover]
            exact (congrArg Prod.fst h).symm
          · rename_i hfits
            rw [if_neg hfits]
            split at h
            · rename_i hminus
              rw [if_pos hminus]
              exact (congrArg Prod.fst h).symm
            · rename_i hplus
              rw [if_neg hplus]
              exact (congrArg Prod.fst h).symm
        refine ⟨s.takeWhile isSpace, sign, pre, d :: rest, _, ?_, ?_, hsign, hpre,
          numeral_eq_some.2 ⟨cons_ne_nil d rest, hall, rfl⟩, hval⟩
        · rw [← hbody, ← hsplit]
          exact hcut
        · intro b hb
          exact mem_takeWhile_imp hb
  · rintro ⟨blanks, sign, pre, body, n, rfl, hblanks, hsign, hpre, hnum, rfl⟩
    obtain ⟨hbne, hall, rfl⟩ := numeral_eq_some.1 hnum
    obtain ⟨b, rest, hhead, hspace, h43, h45⟩ := skipped_head hle hpre hbne hall
    have hres := resolveBase_skipped hb hpre hbne hall
    have hstart : splitSign ((blanks ++ (sign ++ (pre ++ body))).dropWhile isSpace) =
        (sign == [45], pre ++ body) := by
      rw [hhead, dropWhile_blanks hblanks hsign hspace, splitSign_sign hsign h43 h45]
    cases body with
    | nil => exact absurd rfl hbne
    | cons d body =>
      have hd : ¬ (digitIn base d).isNone = true := by
        rw [Option.isNone_iff_eq_none]
        intro hnone
        have hsome := hall d mem_cons_self
        rw [hnone] at hsome
        exact nomatch hsome
      unfold strtoul signedValue
      simp only [cstr_of_nulFree _ hs, hstart, hres, digits_allDigits hall]
      rw [if_neg hd]
      split
      · rfl
      · split <;> rfl

/-- A numeral in range is read as itself. -/
theorem reads_numeral {n : Nat} (h : numeral base s = some n) (hn : n < ulongBound) :
    Reads base s n := by
  refine ⟨[], [], [], s, n, rfl, fun b hb => (nomatch hb), by decide, Or.inl rfl, h, ?_⟩
  unfold signedValue
  rw [if_neg (by omega), if_neg (by decide)]

end Numerals
