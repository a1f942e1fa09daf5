import Mathlib

/-!
# C strings and the libc text functions

A buffer is a list of bytes. The C string that starts at the first byte of a
buffer is `cstr`: everything before the first NUL, with the NUL that ends the
buffer left implicit. Every function here reads its text argument through
`cstr`, so callers may pass any bytes whatsoever.
-/

namespace CString

open List

/-- The bytes of an ASCII literal. -/
def ascii (s : String) : List UInt8 := s.toList.map (fun c => UInt8.ofNat c.toNat)

/-- The string a `char *` denotes: the bytes before the first NUL. -/
def cstr (s : List UInt8) : List UInt8 := s.takeWhile (fun b => b != 0)

def NulFree (s : List UInt8) : Prop := ∀ b ∈ s, b ≠ 0

instance (s : List UInt8) : Decidable (NulFree s) := inferInstanceAs (Decidable (∀ b ∈ s, b ≠ 0))

variable (n : Nat) (s : List UInt8)

theorem cstr_nulFree : NulFree (cstr s) := by
  intro b hb
  simpa using mem_takeWhile_imp hb

theorem cstr_of_nulFree (h : NulFree s) : cstr s = s := by
  simp only [cstr, takeWhile_eq_self_iff]
  intro b hb
  simpa using h b hb

@[simp] theorem cstr_cstr : cstr (cstr s) = cstr s :=
  cstr_of_nulFree _ (cstr_nulFree s)

/-- The string read back at a position where it was stored with its NUL. -/
theorem cstr_append_nul (rest : List UInt8) (h : NulFree s) : cstr (s ++ 0 :: rest) = s := by
  induction s with
  | nil => simp [cstr]
  | cons b s ih =>
    have hb : b ≠ 0 := h b (by simp)
    have hs : NulFree s := fun x hx => h x (by simp [hx])
    have he : (b != 0) = true := by simpa using hb
    have ht := ih hs
    simp only [cstr, cons_append, takeWhile_cons, he, if_true] at ht ⊢
    rw [ht]

/-- `strlcpy`: the stored string (always terminated) and the source length. -/
def strlcpy (src : List UInt8) (size : Nat) : List UInt8 × Nat :=
  ((cstr src).take (size - 1), (cstr src).length)

/-- `strlcat` onto a buffer of `size` bytes that already holds `dst`. -/
def strlcat (dst src : List UInt8) (size : Nat) : List UInt8 :=
  cstr dst ++ (cstr src).take (size - 1 - (cstr dst).length)

theorem strlcpy_fits (src : List UInt8) (size : Nat) (h : (cstr src).length < size) :
    strlcpy src size = (cstr src, (cstr src).length) := by
  simp only [strlcpy, Prod.mk.injEq, and_true]
  exact take_of_length_le (by omega)

theorem strlcat_fits (dst src : List UInt8) (size : Nat)
    (h : (cstr dst).length + (cstr src).length < size) :
    strlcat dst src size = cstr dst ++ cstr src := by
  simp only [strlcat]
  rw [take_of_length_le (by omega)]

/-- Value of an alphanumeric digit in the widest base, 36. -/
def digitVal (b : UInt8) : Option Nat :=
  if 48 ≤ b ∧ b ≤ 57 then some (b.toNat - 48)
  else if 97 ≤ b ∧ b ≤ 122 then some (b.toNat - 87)
  else if 65 ≤ b ∧ b ≤ 90 then some (b.toNat - 55)
  else none

def digitIn (base : Nat) (b : UInt8) : Option Nat :=
  match digitVal b with
  | some d => if d < base then some d else none
  | none => none

/-- `isspace` of the C locale. -/
def isSpace (b : UInt8) : Bool := b == 32 || (9 ≤ b && b ≤ 13)

/-- The digit loop: accumulated value and the first byte that is no digit. -/
def digits (base : Nat) : List UInt8 → Nat → Nat × List UInt8
  | [], acc => (acc, [])
  | b :: s, acc =>
    match digitIn base b with
    | some d => digits base s (acc * base + d)
    | none => (acc, b :: s)

/-- Split an optional sign off; the flag says whether it was a minus. -/
def splitSign : List UInt8 → Bool × List UInt8
  | 45 :: s => (true, s)
  | 43 :: s => (false, s)
  | s => (false, s)

def dropHexPrefix : List UInt8 → Option (List UInt8)
  | 48 :: x :: d :: s =>
    if (x = 120 ∨ x = 88) ∧ (digitIn 16 d).isSome then some (d :: s) else none
  | _ => none

/-- The base in effect and the text at its first digit, for base 0, 10 or 16. -/
def resolveBase (base : Nat) (s : List UInt8) : Nat × List UInt8 :=
  match dropHexPrefix s with
  | some t => if base = 0 ∨ base = 16 then (16, t) else (base, s)
  | none =>
    if base = 0 then (match s with | 48 :: _ => (8, s) | _ => (10, s)) else (base, s)

def ulongBound : Nat := 2 ^ 64

/-- `strtoul`: the value and the text left at the end pointer. Without a single
digit the end pointer is the start of the text; an overflow gives `ULONG_MAX`. -/
def strtoul (base : Nat) (s : List UInt8) : Nat × List UInt8 :=
  let text := cstr s
  let (neg, signed) := splitSign (text.dropWhile isSpace)
  let (b, body) := resolveBase base signed
  match body with
  | [] => (0, text)
  | d :: _ =>
    if (digitIn b d).isNone then (0, text)
    else
      let (n, rest) := digits b body 0
      if ulongBound ≤ n then (ulongBound - 1, rest)
      else if neg then ((ulongBound - n) % ulongBound, rest)
      else (n, rest)

/-- Conversion of an `unsigned long` to `int`. -/
def toInt32 (n : Nat) : Int := (BitVec.ofNat 32 n).toInt

/-- `atoi`, as the conversion of `strtol` to `int`; `strtol` clamps to 64 bits. -/
def atoi (s : List UInt8) : Int :=
  let (neg, body) := splitSign ((cstr s).dropWhile isSpace)
  let n : Int := (digits 10 body 0).1
  let l := if neg then max (-n) (-(2 ^ 63)) else min n (2 ^ 63 - 1)
  (BitVec.ofInt 32 l).toInt

/-- `printf("%lu")`. -/
def decimal (n : Nat) : List UInt8 := (Nat.toDigits 10 n).map (fun c => UInt8.ofNat c.toNat)

/-- `printf("%d")` of a 32 bit value. -/
def decimalInt (n : Nat) : List UInt8 :=
  if toInt32 n < 0 then 45 :: decimal (toInt32 n).natAbs else decimal (toInt32 n).natAbs

def strstr (s needle : List UInt8) : Bool := s.tails.any (needle.isPrefixOf ·)

/-- `strchr`: the text before and after the first occurrence of a byte. -/
def splitFirst (c : UInt8) : List UInt8 → Option (List UInt8 × List UInt8)
  | [] => none
  | b :: s => if b = c then some ([], s) else (splitFirst c s).map fun (x, y) => (b :: x, y)

/-- `strrchr`: the text before and after the last occurrence of a byte. -/
def splitLast (c : UInt8) : List UInt8 → Option (List UInt8 × List UInt8)
  | [] => none
  | b :: s =>
    match splitLast c s with
    | some (before, after) => some (b :: before, after)
    | none => if b = c then some ([], s) else none

theorem splitLast_eq (c : UInt8) (s before after : List UInt8)
    (h : splitLast c s = some (before, after)) : s = before ++ c :: after := by
  induction s generalizing before after with
  | nil => simp [splitLast] at h
  | cons b s ih =>
    rw [splitLast] at h
    split at h
    · rename_i x y hxy
      obtain ⟨rfl, rfl⟩ := Prod.mk.inj (Option.some.inj h)
      rw [ih _ _ hxy]
      rfl
    · split at h
      · rename_i hb
        obtain ⟨rfl, rfl⟩ := Prod.mk.inj (Option.some.inj h)
        rw [hb]
        rfl
      · exact nomatch h

variable {c : UInt8}

theorem splitLast_of_not_mem {s : List UInt8} (h : c ∉ s) : splitLast c s = none := by
  induction s with
  | nil => rfl
  | cons b s ih =>
    have hb : ¬ b = c := fun h0 => h (by simp [h0])
    rw [splitLast, ih (fun h0 => h (by simp [h0]))]
    simp only [if_neg hb]

theorem splitLast_append {t : List UInt8} (h : c ∉ t) :
    splitLast c (s ++ c :: t) = some (s, t) := by
  induction s with
  | nil =>
    rw [nil_append, splitLast, splitLast_of_not_mem h]
    simp only [if_true]
  | cons b s ih => rw [cons_append, splitLast, ih]

/-- A byte that occurs has a last place. -/
theorem exists_last {s : List UInt8} (h : c ∈ s) :
    ∃ before after, s = before ++ c :: after ∧ c ∉ after := by
  induction s with
  | nil => cases h
  | cons b s ih =>
    by_cases hs : c ∈ s
    · obtain ⟨before, after, rfl, hafter⟩ := ih hs
      exact ⟨b :: before, after, rfl, hafter⟩
    · rcases mem_cons.mp h with rfl | h0
      · exact ⟨[], s, rfl, hs⟩
      · exact absurd h0 hs

/-- Decimal text is made of the characters `0` to `9`. -/
theorem decimal_digits : ∀ b ∈ decimal n, 48 ≤ b.toNat ∧ b.toNat ≤ 57 := by
  intro b hb
  simp only [decimal, mem_map] at hb
  obtain ⟨ch, hch, rfl⟩ := hb
  have hdig : ch.isDigit = true := Nat.isDigit_of_mem_toDigits (by decide) (by decide) hch
  simp only [Char.isDigit, Bool.and_eq_true, decide_eq_true_eq] at hdig
  have h1 : 48 ≤ ch.toNat := hdig.1
  have h2 : ch.toNat ≤ 57 := hdig.2
  have h3 : (UInt8.ofNat ch.toNat).toNat = ch.toNat := by
    rw [UInt8.toNat_ofNat']
    omega
  omega

theorem decimal_nulFree : NulFree (decimal n) := by
  intro b hb h0
  have h := (decimal_digits n b hb).1
  rw [h0] at h
  exact absurd h (by decide)

theorem decimal_ne_nil : decimal n ≠ [] := by
  intro h
  exact Nat.toDigits_ne_nil (map_eq_nil_iff.1 h)

/-- The last digit of a number of more than one digit. -/
theorem decimal_ge {n : Nat} (h : 10 ≤ n) : decimal n = decimal (n / 10) ++ decimal (n % 10) := by
  have hlast : n % 10 < 10 := Nat.mod_lt n (by decide)
  rw [decimal, Nat.toDigits_of_base_le (by decide) h, map_append, decimal, decimal,
    Nat.toDigits_of_lt_base hlast]

theorem digits_one_decimal (t : List UInt8) (acc n : Nat) (h : n < 10) :
    digits 10 (decimal n ++ t) acc = digits 10 t (acc * 10 + n) := by
  have key : ∀ k : Fin 10, ∃ b, decimal k = [b] ∧ digitIn 10 b = some k.val := by decide
  obtain ⟨b, hb, hd⟩ := key ⟨n, h⟩
  have hb' : decimal n = [b] := hb
  rw [hb', singleton_append, digits, hd]

/-- The digit loop reads back what was printed. -/
theorem digits_decimal (t : List UInt8) (n : Nat) :
    digits 10 (decimal n ++ t) 0 = digits 10 t n := by
  induction n using Nat.strongRecOn generalizing t with
  | ind n ih =>
    by_cases h : n < 10
    · rw [digits_one_decimal t 0 n h, Nat.zero_mul, Nat.zero_add]
    · have hten : 10 ≤ n := Nat.not_lt.1 h
      rw [decimal_ge hten, append_assoc, ih (n / 10) (by omega),
        digits_one_decimal _ _ _ (Nat.mod_lt n (by decide))]
      congr 1
      omega

/-- A text that starts with a digit has no sign and no leading space. -/
theorem splitSign_decimal (t : List UInt8) :
    splitSign ((decimal n ++ t).dropWhile isSpace) = (false, decimal n ++ t) := by
  cases hd : decimal n with
  | nil => exact absurd hd (decimal_ne_nil n)
  | cons b rest =>
    obtain ⟨h1, h2⟩ := decimal_digits n b (by rw [hd]; exact mem_cons_self)
    have hspace : isSpace b = false := by
      have hb : ∀ k : Fin 58, 48 ≤ k.val → isSpace (UInt8.ofNat k.val) = false := by decide
      have := hb ⟨b.toNat, by omega⟩ h1
      rwa [UInt8.ofNat_toNat] at this
    rw [cons_append, dropWhile_cons_of_neg (by rw [hspace]; decide)]
    unfold splitSign
    split
    · rename_i heq
      rw [List.cons.injEq] at heq
      rw [heq.1] at h1
      exact absurd h1 (by decide)
    · rename_i heq
      rw [List.cons.injEq] at heq
      rw [heq.1] at h1
      exact absurd h1 (by decide)
    · rfl

theorem resolveBase_ten : resolveBase 10 s = (10, s) := by
  unfold resolveBase
  split <;> rfl

/-- The first byte of decimal text is a digit. -/
theorem decimal_head {n : Nat} {b : UInt8} {rest : List UInt8} (h : decimal n = b :: rest) :
    (digitIn 10 b).isNone = false := by
  obtain ⟨h1, h2⟩ := decimal_digits n b (by rw [h]; exact mem_cons_self)
  have key : ∀ k : Fin 58, 48 ≤ k.val → (digitIn 10 (UInt8.ofNat k.val)).isNone = false := by
    decide
  have := key ⟨b.toNat, by omega⟩ h1
  rwa [UInt8.ofNat_toNat] at this

/-- The end of `strtoul` on decimal text behind an optional sign. -/
theorem strtoul_signed {s : List UInt8} {neg : Bool} {n : Nat} (hs : NulFree s)
    (hsplit : splitSign (s.dropWhile isSpace) = (neg, decimal n)) (hn : n < ulongBound) :
    (strtoul 10 s).1 = if neg then (ulongBound - n) % ulongBound else n := by
  have hdigits : digits 10 (decimal n) 0 = (n, []) := by
    have h := digits_decimal [] n
    rwa [append_nil] at h
  cases hd : decimal n with
  | nil => exact absurd hd (decimal_ne_nil n)
  | cons b rest =>
    have hhead := decimal_head hd
    rw [hd] at hsplit hdigits
    rw [strtoul, cstr_of_nulFree s hs, hsplit]
    simp only [resolveBase_ten, hhead, hdigits]
    rw [if_neg (by decide), if_neg (by omega)]
    cases neg <;> rfl

theorem strtoul_decimal {n : Nat} (hn : n < ulongBound) : (strtoul 10 (decimal n)).1 = n := by
  have hsplit := splitSign_decimal n []
  rw [append_nil] at hsplit
  exact strtoul_signed (decimal_nulFree n) hsplit hn

theorem strtoul_minus {n : Nat} (hn : n < ulongBound) :
    (strtoul 10 (45 :: decimal n)).1 = (ulongBound - n) % ulongBound := by
  have hfree : NulFree (45 :: decimal n) := by
    intro b hb
    rcases mem_cons.1 hb with rfl | hb
    · decide
    · exact decimal_nulFree n b hb
  have hsplit : splitSign ((45 :: decimal n).dropWhile isSpace) = (true, decimal n) := by
    rw [dropWhile_cons_of_neg (by decide)]
    rfl
  exact strtoul_signed hfree hsplit hn

/-- `atoi` reads back a printed number that is an `int`. -/
theorem atoi_decimal {n : Nat} (h : n < 2 ^ 31) : atoi (decimal n) = n := by
  have hsplit := splitSign_decimal n []
  have hdigits := digits_decimal [] n
  rw [append_nil] at hsplit hdigits
  have hmin : min (n : Int) (2 ^ 63 - 1) = n := by omega
  rw [atoi, cstr_of_nulFree _ (decimal_nulFree n), hsplit]
  simp only [hdigits, digits]
  rw [if_neg (by decide), hmin, BitVec.toInt_ofInt]
  exact Int.bmod_eq_of_le (by omega) (by omega)

end CString
