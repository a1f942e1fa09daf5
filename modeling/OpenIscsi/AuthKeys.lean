import OpenIscsi.AuthText

/-!
# Key blocks

A key block collects the text keys of one message. Values are appended to one
string block and never move, so a key is read back from its offset. The bytes
beyond `blk_length` are not kept: `strBlock` is the used part of the block and
its length is `blk_length`.
-/

namespace AuthKeys

open CString AuthText

inductive KeyType where
  | authMethod | chapAlg | chapUsername | chapRsp | chapIdentifier | chapChallenge
  deriving DecidableEq, Repr

def keyTypes : List KeyType :=
  [.authMethod, .chapAlg, .chapUsername, .chapRsp, .chapIdentifier, .chapChallenge]

def keyTypeOfInt (n : Int) : Option KeyType :=
  if n < 0 then none else keyTypes[n.toNat]?

def KeyType.code : KeyType → Int
  | .authMethod => 0
  | .chapAlg => 1
  | .chapUsername => 2
  | .chapRsp => 3
  | .chapIdentifier => 4
  | .chapChallenge => 5

@[simp] theorem keyTypeOfInt_code (k : KeyType) : keyTypeOfInt k.code = some k := by
  cases k <;> rfl

theorem code_of_keyTypeOfInt (n : Int) (k : KeyType) (h : keyTypeOfInt n = some k) : n = k.code := by
  unfold keyTypeOfInt at h
  split at h
  · cases h
  · rename_i hn
    have hlt : n.toNat < 6 := (List.getElem?_eq_some_iff.mp h).1
    have hcases : n = 0 ∨ n = 1 ∨ n = 2 ∨ n = 3 ∨ n = 4 ∨ n = 5 := by omega
    rcases hcases with rfl | rfl | rfl | rfl | rfl | rfl <;>
      (simp only [keyTypes] at h; cases h; rfl)

def aclGetKeyName : KeyType → List UInt8
  | .authMethod => ascii "AuthMethod"
  | .chapAlg => ascii "CHAP_A"
  | .chapUsername => ascii "CHAP_N"
  | .chapRsp => ascii "CHAP_R"
  | .chapIdentifier => ascii "CHAP_I"
  | .chapChallenge => ascii "CHAP_C"

structure AuthKey where
  present : Bool := false
  processed : Bool := false
  valueSet : Bool := false
  /-- Offset of the string in the block. -/
  string : Nat := 0
  deriving DecidableEq, Repr

structure KeyBlock where
  transitBit : Bool := false
  dupSet : Bool := false
  strTooLong : Bool := false
  tooMuchData : Bool := false
  strBlock : List UInt8 := []
  key : KeyType → AuthKey := fun _ => {}

def aclInitKeyBlk : KeyBlock := {}

variable (b : KeyBlock) (k : KeyType) (v : Option (List UInt8)) (k' : KeyType)

def KeyBlock.setKey (b : KeyBlock) (k : KeyType) (e : AuthKey) : KeyBlock :=
  { b with key := Function.update b.key k e }

def aclSetKeyValue (b : KeyBlock) (k : KeyType) (keyVal : Option (List UInt8)) : KeyBlock :=
  if (b.key k).valueSet then { b with dupSet := true }
  else
    let b := b.setKey k { b.key k with valueSet := true }
    match keyVal with
    | none => b
    | some v =>
      match aclChkString keyVal authStrMaxLen with
      | none => { b with strTooLong := true }
      | some n =>
        let length := n + 1
        if authStrBlockMaxLen < b.strBlock.length + length then { b with tooMuchData := true }
        else if length ≤ (strlcpy v length).2 then { b with tooMuchData := true }
        else
          { b with strBlock := b.strBlock ++ (strlcpy v length).1 ++ [0] }.setKey k
            { b.key k with string := b.strBlock.length, present := true }

def KeyBlock.keyVal (b : KeyBlock) (k : KeyType) : Option (List UInt8) :=
  if (b.key k).present then some (cstr (b.strBlock.drop (b.key k).string)) else none

def KeyBlock.markProcessed (b : KeyBlock) (k : KeyType) : KeyBlock :=
  b.setKey k { b.key k with processed := true }

def aclGetKeyVal (b : KeyBlock) (k : KeyType) : Option (List UInt8) × KeyBlock :=
  (b.keyVal k, b.markProcessed k)

/-- Some key of the message was present and never read. -/
def KeyBlock.unexpectedKey (b : KeyBlock) : Bool :=
  keyTypes.any (fun k => (b.key k).present && !(b.key k).processed)

def KeyBlock.Terminated (b : KeyBlock) (k : KeyType) : Prop :=
  (b.key k).present = true → ∃ s rest, NulFree s ∧ b.strBlock.drop (b.key k).string = s ++ 0 :: rest

structure KeyBlock.WF (b : KeyBlock) : Prop where
  set_of_present : ∀ k, (b.key k).present = true → (b.key k).valueSet = true
  terminated : ∀ k, b.Terminated k

theorem aclInitKeyBlk_wf : aclInitKeyBlk.WF := by
  constructor <;> intro k hk <;> simp [aclInitKeyBlk] at hk

@[simp] theorem markProcessed_keyVal :
    (b.markProcessed k).keyVal k' = b.keyVal k' := by
  by_cases h : k' = k
  · subst k'
    simp [KeyBlock.keyVal, KeyBlock.markProcessed, KeyBlock.setKey]
  · simp [KeyBlock.keyVal, KeyBlock.markProcessed, KeyBlock.setKey, h]

/-- The value is short enough and there is room for it and its NUL. -/
def KeyBlock.fits (b : KeyBlock) (v : List UInt8) : Prop :=
  (cstr v).length < authStrMaxLen ∧ b.strBlock.length + (cstr v).length + 1 ≤ authStrBlockMaxLen

instance (b : KeyBlock) (v : List UInt8) : Decidable (b.fits v) := by
  unfold KeyBlock.fits
  infer_instance

/-- The block after a first value that fits. -/
theorem aclSetKeyValue_fits (v : List UInt8)
    (hset : (b.key k).valueSet = false) (hfit : b.fits v) :
    aclSetKeyValue b k (some v) =
      { b with
        strBlock := b.strBlock ++ cstr v ++ [0]
        key := Function.update b.key k
          { b.key k with string := b.strBlock.length, present := true, valueSet := true } } := by
  obtain ⟨hlen, hroom⟩ := hfit
  have hcopy := strlcpy_fits v ((cstr v).length + 1) (by omega)
  simp only [aclSetKeyValue, hset, Bool.false_eq_true, if_false, aclChkString, hlen, if_true,
    KeyBlock.setKey, Function.update_self, Function.update_idem, hcopy]
  rw [if_neg (by omega), if_neg (by omega)]

def KeyBlock.mark (b : KeyBlock) (k : KeyType) : KeyBlock :=
  b.setKey k { b.key k with valueSet := true }

/-- Everything a call can do: a repeated key is only flagged; a first call marks its key and then
stores its value, or sets a flag where the value is too long or does not fit. -/
theorem aclSetKeyValue_cases :
    ((b.key k).valueSet = true ∧ aclSetKeyValue b k v = { b with dupSet := true }) ∨
    ((b.key k).valueSet = false ∧
      ((v = none ∧ aclSetKeyValue b k v = b.mark k) ∨
      ∃ s, v = some s ∧
        ((authStrMaxLen ≤ (cstr s).length ∧
          aclSetKeyValue b k v = { b.mark k with strTooLong := true }) ∨
        ((cstr s).length < authStrMaxLen ∧ ¬ b.fits s ∧
          aclSetKeyValue b k v = { b.mark k with tooMuchData := true }) ∨
        (b.fits s ∧ aclSetKeyValue b k v =
          { b with
            strBlock := b.strBlock ++ cstr s ++ [0]
            key := Function.update b.key k
              { b.key k with string := b.strBlock.length, present := true, valueSet := true } })))) := by
  cases hset : (b.key k).valueSet with
  | true => exact .inl ⟨rfl, by simp [aclSetKeyValue, hset]⟩
  | false =>
    refine .inr ⟨rfl, ?_⟩
    cases v with
    | none => exact .inl ⟨rfl, by simp [aclSetKeyValue, hset, KeyBlock.mark]⟩
    | some s =>
      refine .inr ⟨s, rfl, ?_⟩
      by_cases hfit : b.fits s
      · exact .inr (.inr ⟨hfit, aclSetKeyValue_fits b k s hset hfit⟩)
      · by_cases hlen : (cstr s).length < authStrMaxLen
        · refine .inr (.inl ⟨hlen, hfit, ?_⟩)
          have hroom : authStrBlockMaxLen < b.strBlock.length + ((cstr s).length + 1) := by
            by_contra hle
            exact hfit ⟨hlen, by omega⟩
          simp [aclSetKeyValue, hset, aclChkString, hlen, KeyBlock.mark, KeyBlock.setKey, hroom]
        · exact .inl ⟨by omega, by simp [aclSetKeyValue, hset, aclChkString, hlen, KeyBlock.mark]⟩

@[simp] theorem aclSetKeyValue_transitBit :
    (aclSetKeyValue b k v).transitBit = b.transitBit := by
  rcases aclSetKeyValue_cases b k v with
    ⟨-, he⟩ | ⟨-, ⟨-, he⟩ | ⟨s, -, ⟨-, he⟩ | ⟨-, -, he⟩ | ⟨-, he⟩⟩⟩ <;> rw [he] <;> rfl

/-- A call that stores nothing keeps the stored strings: it sets flags and, on a key not
set before, the set mark. Otherwise its value is the first for its key and fits. -/
theorem aclSetKeyValue_keeps_or :
    ((aclSetKeyValue b k v).strBlock = b.strBlock ∧
      ((aclSetKeyValue b k v).key = b.key ∨
        (aclSetKeyValue b k v).key = Function.update b.key k { b.key k with valueSet := true }) ∧
      ¬ ((b.key k).valueSet = false ∧ (v.any fun s => decide (b.fits s)) = true)) ∨
    ∃ s, v = some s ∧ (b.key k).valueSet = false ∧ b.fits s := by
  rcases aclSetKeyValue_cases b k v with
    ⟨hset, he⟩ | ⟨hset, ⟨rfl, he⟩ | ⟨s, rfl, ⟨hlen, he⟩ | ⟨-, hfit, he⟩ | ⟨hfit, -⟩⟩⟩
  · rw [he]
    exact .inl ⟨rfl, .inl rfl, by simp [hset]⟩
  · rw [he]
    exact .inl ⟨rfl, .inr rfl, by simp⟩
  · rw [he]
    exact .inl ⟨rfl, .inr rfl, by simp [KeyBlock.fits, hlen.not_gt]⟩
  · rw [he]
    exact .inl ⟨rfl, .inr rfl, by simp [hfit]⟩
  · exact .inr ⟨s, rfl, hset, hfit⟩

theorem setMark_keyVal (b' : KeyBlock) (k : KeyType) (hs : b'.strBlock = b.strBlock)
    (hk : b'.key = b.key ∨ b'.key = Function.update b.key k { b.key k with valueSet := true })
    (k' : KeyType) : b'.keyVal k' = b.keyVal k' := by
  rcases hk with hk | hk
  · simp [KeyBlock.keyVal, hs, hk]
  · by_cases h : k' = k
    · subst k'; simp [KeyBlock.keyVal, hs, hk]
    · simp [KeyBlock.keyVal, hs, hk, h]

theorem setMark_wf (b' : KeyBlock) (k : KeyType) (hb : b.WF) (hs : b'.strBlock = b.strBlock)
    (hk : b'.key = b.key ∨ b'.key = Function.update b.key k { b.key k with valueSet := true }) :
    b'.WF := by
  rcases hk with hk | hk
  · exact ⟨by simpa [hk] using hb.set_of_present, fun k' => by
      simpa [KeyBlock.Terminated, hk, hs] using hb.terminated k'⟩
  · constructor
    · intro k' hp
      by_cases h : k' = k
      · subst k'; simp [hk]
      · simp only [hk, Function.update_of_ne h] at hp ⊢
        exact hb.set_of_present k' hp
    · intro k' hp
      by_cases h : k' = k
      · subst k'
        simp only [hk, Function.update_self, hs] at hp ⊢
        exact hb.terminated _ hp
      · simp only [hk, Function.update_of_ne h, hs] at hp ⊢
        exact hb.terminated k' hp

theorem KeyBlock.Terminated.string_le (hb : b.Terminated k)
    (hp : (b.key k).present = true) : (b.key k).string ≤ b.strBlock.length := by
  obtain ⟨s, rest, -, he⟩ := hb hp
  by_contra hgt
  rw [List.drop_eq_nil_of_le (by omega)] at he
  simp at he

theorem aclSetKeyValue_wf (hb : b.WF) :
    (aclSetKeyValue b k v).WF := by
  rcases aclSetKeyValue_keeps_or b k v with ⟨hs, hk, -⟩ | ⟨s, rfl, hset, hfit⟩
  · exact setMark_wf b _ k hb hs hk
  · rw [aclSetKeyValue_fits b k s hset hfit]
    constructor
    · intro k' hp
      by_cases hk : k' = k
      · subst k'; simp
      · simp only [Function.update_of_ne hk] at hp ⊢
        exact hb.set_of_present k' hp
    · intro k' hp
      by_cases hk : k' = k
      · subst k'
        exact ⟨cstr s, [], cstr_nulFree s, by simp⟩
      · simp only [Function.update_of_ne hk] at hp ⊢
        obtain ⟨t, rest, ht, he⟩ := hb.terminated k' hp
        have hlt := KeyBlock.Terminated.string_le b k' (hb.terminated k') hp
        refine ⟨t, rest ++ cstr s ++ [0], ht, ?_⟩
        rw [List.append_assoc, List.drop_append_of_le_length hlt, he]
        simp

/-- Reading back: a first value that fits is returned exactly, and every other
call leaves every key as it was. -/
theorem aclSetKeyValue_keyVal (hb : b.Terminated k') :
    (aclSetKeyValue b k v).keyVal k' =
      if k' = k ∧ (b.key k).valueSet = false ∧ (v.any fun s => decide (b.fits s)) = true then v.map cstr
      else b.keyVal k' := by
  rcases aclSetKeyValue_keeps_or b k v with ⟨hs, hk, hno⟩ | ⟨s, rfl, hset, hfit⟩
  · rw [setMark_keyVal b _ k hs hk, if_neg (fun h => hno h.2)]
  · rw [aclSetKeyValue_fits b k s hset hfit]
    by_cases hk : k' = k
    · subst k'
      simp only [KeyBlock.keyVal, Function.update_self, if_true, hset, Option.any_some,
        decide_eq_true_eq, hfit, and_self, Option.map_some, Option.some.injEq]
      rw [List.append_assoc, List.drop_left]
      exact cstr_append_nul _ _ (cstr_nulFree s)
    · simp only [KeyBlock.keyVal, Function.update_of_ne hk, hk, false_and, if_false]
      by_cases hp : (b.key k').present = true
      · obtain ⟨t, rest, ht, he⟩ := hb hp
        have hlt := KeyBlock.Terminated.string_le b k' hb hp
        rw [if_pos hp, if_pos hp, List.append_assoc, List.drop_append_of_le_length hlt, he]
        simp only [List.append_assoc, List.cons_append]
        rw [cstr_append_nul _ _ ht, cstr_append_nul _ _ ht]
      · rw [if_neg hp, if_neg hp]

/-- No error flag is set. -/
def KeyBlock.clean (b : KeyBlock) : Bool := !b.dupSet && !b.strTooLong && !b.tooMuchData

/-- A block left clean by a call took the value in. -/
theorem aclSetKeyValue_clean (v : List UInt8)
    (h : (aclSetKeyValue b k (some v)).clean = true) :
    b.clean = true ∧ (b.key k).valueSet = false ∧ b.fits v := by
  rcases aclSetKeyValue_cases b k (some v) with
    ⟨-, he⟩ | ⟨hset, ⟨hv, -⟩ | ⟨s, hs, ⟨-, he⟩ | ⟨-, -, he⟩ | ⟨hfit, he⟩⟩⟩
  · simp [he, KeyBlock.clean] at h
  · cases hv
  · simp [he, KeyBlock.clean] at h
  · simp [he, KeyBlock.clean] at h
  · cases hs
    rw [he] at h
    exact ⟨h, hset, hfit⟩

/-- A clean call stores its value under its key. -/
theorem aclSetKeyValue_keyVal_self (v : List UInt8)
    (h : (aclSetKeyValue b k (some v)).clean = true) :
    (aclSetKeyValue b k (some v)).keyVal k = some (cstr v) ∧
      (aclSetKeyValue b k (some v)).Terminated k := by
  obtain ⟨-, hset, hfit⟩ := aclSetKeyValue_clean b k v h
  rw [aclSetKeyValue_fits b k v hset hfit]
  constructor
  · simp only [KeyBlock.keyVal, Function.update_self, if_true, Option.some.injEq]
    rw [List.append_assoc, List.drop_left]
    exact cstr_append_nul _ _ (cstr_nulFree v)
  · intro _
    exact ⟨cstr v, [], cstr_nulFree v, by simp⟩

theorem aclSetKeyValue_keyVal_of_ne (v : Option (List UInt8))
    (hb : b.Terminated k') (hk : k' ≠ k) : (aclSetKeyValue b k v).keyVal k' = b.keyVal k' := by
  rw [aclSetKeyValue_keyVal b k v k' hb, if_neg (fun h => hk h.1)]

end AuthKeys
