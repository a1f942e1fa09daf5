import OpenIscsi.Lib.CString

/-!
# Text forms of CHAP numbers and binary values

The conversions of `auth.c` between received text and data: CHAP numbers go
through `strtoul`, binary values are hexadecimal after `0x` or base64 after
`0b`. A decoder answers `none` where the code returns a nonzero status.
-/

namespace AuthText

open CString

def authStrMaxLen : Nat := 256
def authStrBlockMaxLen : Nat := 1024
def authLargeBinaryMaxLen : Nat := 1024

def aclTextToNumber (text : List UInt8) : Option Nat :=
  let s := cstr text
  let r := match s with
    | 48 :: x :: t => if x = 120 ∨ x = 88 then strtoul 16 t else strtoul 10 s
    | _ => strtoul 10 s
  if s ≠ [] ∧ r.2 = [] then some r.1 else none

def aclChkString (s : Option (List UInt8)) (maxLen : Nat) : Option Nat :=
  match s with
  | none => none
  | some s => if (cstr s).length < maxLen then some (cstr s).length else none

def aclHexstring : List UInt8 := ascii "0123456789abcdefABCDEF"

def aclBase64String : List UInt8 :=
  ascii "ABCDEFGHIJKLMNOPQRSTUVWXYZabcdefghijklmnopqrstuvwxyz0123456789+/"

/-- `acl_str_index`: position of a byte, the terminating NUL included. -/
def aclStrIndex (s : List UInt8) (c : UInt8) : Option Nat := (s ++ [0]).findIdx? (fun b => b == c)

/-- A nibble of a hexadecimal text; upper case letters sit past position 15. -/
def hexNibble (c : UInt8) : Option Nat :=
  (aclStrIndex aclHexstring c).map (fun i => if 15 < i then i - 6 else i)

def hexDigit (n : Nat) : UInt8 := aclHexstring.getD n 0

def dataToTextLoop : List UInt8 → Nat → Bool × List UInt8
  | [], _ => (false, [])
  | b :: data, textLength =>
    if textLength < 3 then (true, [])
    else
      let r := dataToTextLoop data (textLength - 2)
      (r.1, hexDigit (b.toNat / 16) :: hexDigit (b.toNat % 16) :: r.2)

def aclDataToText (data : List UInt8) (textLength : Nat) : Bool × List UInt8 :=
  if textLength = 0 then (true, [])
  else if data = [] then (true, [])
  else if textLength < 3 then (true, [])
  else
    let r := dataToTextLoop data (textLength - 2)
    (r.1, 48 :: 120 :: r.2)

variable (data : List UInt8) (textLength n : Nat)

theorem dataToTextLoop_fits
    (h : 2 * data.length < textLength) : (dataToTextLoop data textLength).1 = false := by
  induction data generalizing textLength with
  | nil => rfl
  | cons b data ih =>
    simp only [List.length_cons] at h
    simp only [dataToTextLoop]
    rw [if_neg (by omega)]
    exact ih (textLength - 2) (by omega)

theorem aclDataToText_fits (hne : data ≠ [])
    (h : 2 * data.length + 2 < textLength) : (aclDataToText data textLength).1 = false := by
  simp only [aclDataToText, hne, if_false]
  rw [if_neg (by omega), if_neg (by omega)]
  exact dataToTextLoop_fits data (textLength - 2) (by omega)

/-- The byte loop of `acl_hex_to_data`, with the space that is left. -/
def hexToDataLoop : List UInt8 → Nat → Option (List UInt8)
  | [], _ => some []
  | [_], _ => none
  | c1 :: c2 :: text, room =>
    match hexNibble c1, hexNibble c2 with
    | some n1, some n2 =>
      if room < 1 then none
      else (hexToDataLoop text (room - 1)).map (fun r => UInt8.ofNat (n1 * 16 + n2) :: r)
    | _, _ => none

/-- `acl_hex_to_data`: an odd text starts with a single nibble, and an empty
result is an error. -/
def aclHexToData (text : List UInt8) (dataLen : Nat) : Option (List UInt8) :=
  let r :=
    if text.length % 2 = 1 then
      match text with
      | [] => none
      | c :: rest =>
        match hexNibble c with
        | none => none
        | some n =>
          if dataLen < 1 then none
          else (hexToDataLoop rest (dataLen - 1)).map (fun r => UInt8.ofNat n :: r)
    else hexToDataLoop text dataLen
  match r with
  | some [] => none
  | r => r

/-- The incomplete last quantum of a base64 text. -/
def base64Tail (n count room : Nat) : Option (List UInt8) :=
  if count = 0 then some []
  else if count = 2 then (if room < 1 then none else some [UInt8.ofNat (n / 16)])
  else if count = 3 then
    (if room < 2 then none else some [UInt8.ofNat (n / 4 / 256), UInt8.ofNat (n / 4)])
  else none

/-- The quantum loop of `acl_base64_to_data`. `n` and `count` are the pending
six-bit groups; after the first `=` nothing but padding is accepted. -/
def base64Loop : List UInt8 → Nat → Nat → Nat → Option (List UInt8)
  | [], n, count, room => base64Tail n count room
  | c :: text, n, count, room =>
    if c = 61 then (if text.all (fun b => b == 61) then base64Tail n count room else none)
    else
      match aclStrIndex aclBase64String c with
      | none => none
      | some i =>
        let n := n * 64 + i
        if 4 ≤ count + 1 then
          if room < 3 then none
          else (base64Loop text 0 0 (room - 3)).map (fun r =>
            UInt8.ofNat (n / 65536) :: UInt8.ofNat (n / 256) :: UInt8.ofNat n :: r)
        else base64Loop text n (count + 1) room

def aclBase64ToData (text : List UInt8) (dataLen : Nat) : Option (List UInt8) :=
  match base64Loop text 0 0 dataLen with
  | some [] => none
  | r => r

def aclTextToData (text : Option (List UInt8)) (dataLen : Nat) : Option (List UInt8) :=
  match text, aclChkString text (2 + 2 * authLargeBinaryMaxLen + 1) with
  | some text, some _ =>
    match cstr text with
    | 48 :: x :: rest =>
      if x = 120 ∨ x = 88 then aclHexToData rest dataLen
      else if x = 98 ∨ x = 66 then aclBase64ToData rest dataLen
      else none
    | _ => none
  | _, _ => none

@[simp] theorem aclTextToData_cstr (text : List UInt8) (dataLen : Nat) :
    aclTextToData (some (cstr text)) dataLen = aclTextToData (some text) dataLen := by
  simp only [aclTextToData, aclChkString, cstr_cstr]
  by_cases h : (cstr text).length < 2 + 2 * authLargeBinaryMaxLen + 1
  · simp only [h, if_true, cstr_cstr]
  · simp only [h, if_false]

/-! ## Round trips -/

theorem hexNibble_hexDigit (h : n < 16) : hexNibble (hexDigit n) = some n := by
  interval_cases n <;> decide

theorem hexDigit_ne_zero (h : n < 16) : hexDigit n ≠ 0 := by
  interval_cases n <;> decide

/-- The digits written for a list of bytes are read back as the bytes. -/
theorem hexToDataLoop_dataToTextLoop (room : Nat)
    (ht : 2 * data.length < textLength) (hr : data.length ≤ room) :
    hexToDataLoop (dataToTextLoop data textLength).2 room = some data := by
  induction data generalizing textLength room with
  | nil => simp [dataToTextLoop, hexToDataLoop]
  | cons b data ih =>
    simp only [List.length_cons] at ht hr
    have hb : b.toNat < 256 := b.toNat_lt
    have hhi : b.toNat / 16 < 16 := by omega
    have hlo : b.toNat % 16 < 16 := by omega
    have hrec := ih (textLength - 2) (room - 1) (by omega) (by omega)
    have hval : UInt8.ofNat (b.toNat / 16 * 16 + b.toNat % 16) = b := by
      rw [Nat.div_add_mod' b.toNat 16]
      exact UInt8.ofNat_toNat
    rw [dataToTextLoop, if_neg (by omega)]
    simp only [hexToDataLoop, hexNibble_hexDigit _ hhi, hexNibble_hexDigit _ hlo]
    rw [if_neg (by omega), hrec, Option.map_some, hval]

theorem dataToTextLoop_length
    (h : 2 * data.length < textLength) :
    (dataToTextLoop data textLength).2.length = 2 * data.length := by
  induction data generalizing textLength with
  | nil => simp [dataToTextLoop]
  | cons b data ih =>
    simp only [List.length_cons] at h
    rw [dataToTextLoop, if_neg (by omega)]
    simp only [List.length_cons, ih (textLength - 2) (by omega)]
    omega

theorem dataToTextLoop_nulFree :
    NulFree (dataToTextLoop data textLength).2 := by
  induction data generalizing textLength with
  | nil => simp [dataToTextLoop, NulFree]
  | cons b data ih =>
    have hb : b.toNat < 256 := b.toNat_lt
    rw [dataToTextLoop]
    split
    · simp [NulFree]
    · intro x hx
      simp only [List.mem_cons] at hx
      rcases hx with rfl | rfl | hx
      · exact hexDigit_ne_zero _ (by omega)
      · exact hexDigit_ne_zero _ (by omega)
      · exact ih _ x hx

/-- The text written for some data is a string of known length. -/
theorem aclDataToText_text (hne : data ≠ [])
    (h : 2 * data.length + 2 < textLength) :
    NulFree (aclDataToText data textLength).2 ∧
      (aclDataToText data textLength).2.length = 2 * data.length + 2 := by
  simp only [aclDataToText, hne, if_false]
  rw [if_neg (by omega), if_neg (by omega)]
  constructor
  · intro b hb
    simp only [List.mem_cons] at hb
    rcases hb with rfl | rfl | hb
    · decide
    · decide
    · exact dataToTextLoop_nulFree data _ b hb
  · simp only [List.length_cons, dataToTextLoop_length data (textLength - 2) (by omega)]

/-- Binary values survive the way through their text. -/
theorem aclTextToData_aclDataToText (dataLen : Nat) (hne : data ≠ [])
    (h : 2 * data.length + 2 < textLength) (hlen : data.length ≤ dataLen)
    (hmax : data.length ≤ authLargeBinaryMaxLen) :
    aclTextToData (some (aclDataToText data textLength).2) dataLen = some data := by
  obtain ⟨hnul, hl⟩ := aclDataToText_text data textLength hne h
  have hshort : (cstr (aclDataToText data textLength).2).length < 2 + 2 * authLargeBinaryMaxLen + 1 := by
    rw [cstr_of_nulFree _ hnul, hl]
    omega
  have htext : (aclDataToText data textLength).2 =
      48 :: 120 :: (dataToTextLoop data (textLength - 2)).2 := by
    simp only [aclDataToText, hne, if_false]
    rw [if_neg (by omega), if_neg (by omega)]
  have hloop := hexToDataLoop_dataToTextLoop data (textLength - 2) dataLen (by omega) hlen
  have hdata : aclHexToData (dataToTextLoop data (textLength - 2)).2 dataLen = some data := by
    have heven : ¬ (dataToTextLoop data (textLength - 2)).2.length % 2 = 1 := by
      rw [dataToTextLoop_length data _ (by omega)]
      omega
    simp only [aclHexToData, heven, if_false, hloop]
    cases data with
    | nil => exact absurd rfl hne
    | cons b data => rfl
  simp only [aclTextToData, aclChkString, hshort, if_true]
  rw [cstr_of_nulFree _ hnul, htext]
  simp [hdata]

theorem aclTextToNumber_decimal (h : n < 256) : aclTextToNumber (decimal n) = some n := by
  have hall : ∀ n < 256, aclTextToNumber (decimal n) = some n := by decide +kernel
  exact hall n h

example : aclTextToData (some (ascii "0x0aFf")) 4 = some [10, 255] := by decide

end AuthText
