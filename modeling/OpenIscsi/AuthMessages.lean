import OpenIscsi.AuthWire
import OpenIscsi.AuthStages

/-!
# The values of an undisturbed exchange

Each message of a successful exchange is a small set of values. Here they are
named, with the facts that they fit into a key block and through the wire.
-/

namespace AuthMessages

open CString AuthText AuthKeys AuthClient AuthApi AuthRun AuthWire

/-! ## Blocks of known values -/

/-- A block that holds the given values in at most `n` bytes. -/
structure Filled (b : KeyBlock) (f : KeyType → Option (List UInt8)) (n : Nat) : Prop where
  holds : Holds b f
  length : b.strBlock.length ≤ n

/-- The values of an empty message. -/
def noKeys : KeyType → Option (List UInt8) := fun _ => none

def withKey (f : KeyType → Option (List UInt8)) (k : KeyType) (v : List UInt8) :
    KeyType → Option (List UInt8) :=
  Function.update f k (some v)

theorem Filled.init (t : Bool) : Filled { aclInitKeyBlk with transitBit := t } noKeys 0 :=
  ⟨⟨⟨fun _ hp => by simp [aclInitKeyBlk] at hp, fun _ hp => by simp [aclInitKeyBlk] at hp⟩, rfl,
    fun k => by simp [KeyBlock.keyVal, aclInitKeyBlk, noKeys], fun _ _ => rfl⟩, le_refl _⟩

variable {b : KeyBlock} (D : Digest) {f : KeyType → Option (List UInt8)} (a : ChapAlg) (rmt : Bool)
  (rsp : List UInt8) {n : Nat} (name : List UInt8) (id : UInt8)

theorem Filled.set (h : Filled b f n)
    (k : KeyType) (v : List UInt8) (hk : f k = none) (hv : NulFree v)
    (hlen : v.length < authStrMaxLen) (hroom : n + v.length + 1 ≤ authStrBlockMaxLen) :
    Filled (aclSetKeyValue b k (some v)) (withKey f k v) (n + v.length + 1) := by
  have hc := cstr_of_nulFree v hv
  have hl := h.length
  have hfit : b.fits v := by
    unfold KeyBlock.fits
    rw [hc]
    omega
  obtain ⟨hholds, hlength⟩ := h.holds.set k v hk hfit
  rw [hc] at hholds hlength
  exact ⟨hholds, by omega⟩

/-- A message of one short value. -/
theorem Filled.single (t : Bool) (k : KeyType) (v : List UInt8) (hv : NulFree v ∧ v.length < 16) :
    Filled (aclSetKeyValue { aclInitKeyBlk with transitBit := t } k (some v)) (withKey noKeys k v)
      16 := by
  have hset := (Filled.init t).set k v rfl hv.1 (by unfold authStrMaxLen; omega)
    (by unfold authStrBlockMaxLen; omega)
  exact ⟨hset.holds, hset.length.trans (by omega)⟩

theorem Filled.transit
    (h : Filled b f n) (t : Bool) : Filled { b with transitBit := t } f n :=
  ⟨⟨⟨h.holds.wf.set_of_present, h.holds.wf.terminated⟩, h.holds.clean, h.holds.val, h.holds.unset⟩,
    h.length⟩

/-! ## Handing values over -/

def valueRoom : Option (List UInt8) → Nat
  | some v => v.length + 1
  | none => 0

/-- Values that fit into a message. -/
structure Sendable (f : KeyType → Option (List UInt8)) : Prop where
  short : ∀ k v, f k = some v → NulFree v ∧ v.length < authStrMaxLen
  room : (keyTypes.map (fun k => valueRoom (f k))).sum ≤ authStrBlockMaxLen
  empty : ∀ v, f .chapChallenge = some v → v = []

theorem stored_wire (h : ∀ v, f .chapChallenge = some v → v = [])
    (text : List UInt8) : stored (wire text f) = f := by
  funext k
  by_cases hk : k = .chapChallenge
  · subst hk
    cases hf : f .chapChallenge with
    | none => simp [stored, wire, hf]
    | some v => simp [stored, wire, hf, h v hf]
  · simp [stored, wire, hk]

theorem Sendable.acceptable (h : Sendable f)
    (text : List UInt8) : Acceptable (wire text f) := by
  have hst := stored_wire h.empty text
  refine ⟨fun k v hv => h.short k v (by rw [hst] at hv; exact hv), ?_⟩
  have hroom : keyRoom (wire text f) = fun k => valueRoom (f k) := by
    funext k
    simp only [keyRoom, hst]
    cases f k <;> rfl
  rw [hroom]
  exact h.room

/-- A side hands out its values; the challenge can be read back from its text. -/
theorem sendAll_sendable {maxLength : Nat} {c : IscsiAcl} (hmax : authStrMaxLen ≤ maxLength)
    (hs : c.signature = aclSignature) (hp : Phase.canSend c.phase = true) (hf : Sendable f)
    (hv : Holds c.sendKeyBlock f)
    (hch : f .chapChallenge ≠ none → c.sendChapChallenge ≠ [] ∧ c.sendChapChallenge.length ≤ 32) :
    ∃ b text, b.transitBit = c.sendKeyBlock.transitBit ∧
      sendAll maxLength c = ⟨{ c with sendKeyBlock := b }, c.sendKeyBlock.transitBit,
        keysOf keyTypes (wire text f)⟩ ∧
      (f .chapChallenge ≠ none →
        aclTextToData (some text) authLargeBinaryMaxLen = some c.sendChapChallenge) := by
  have hstr : authStrMaxLen = 256 := rfl
  have hcan : CanSend maxLength c f := by
    refine ⟨hs, hp, hv.val, fun k v _ hk => ?_, fun hne => ?_⟩
    · obtain ⟨hn, hlen⟩ := hf.short k v hk
      exact ⟨hn, by omega⟩
    · obtain ⟨hne, hlen⟩ := hch hne
      exact aclDataToText_fits _ _ hne (by omega)
  obtain ⟨b, hbit, hsend⟩ := sendAll_value hcan
  refine ⟨b, _, hbit, hsend, fun hne => ?_⟩
  obtain ⟨hne, hlen⟩ := hch hne
  have hlarge : authLargeBinaryMaxLen = 1024 := rfl
  exact aclTextToData_aclDataToText _ maxLength authLargeBinaryMaxLen hne (by omega) (by omega)
    (by omega)

theorem sendable_single (k : KeyType) {v : List UInt8} (hv : NulFree v ∧ v.length < 16)
    (hk : k ≠ .chapChallenge) : Sendable (withKey noKeys k v) := by
  obtain ⟨hn, hlen⟩ := hv
  have hstr : authStrMaxLen = 256 := rfl
  refine ⟨fun k' w hw => ?_, ?_, fun w hw => ?_⟩
  · by_cases hkk : k' = k
    · subst hkk
      simp only [withKey, Function.update_self, Option.some.injEq] at hw
      subst hw
      exact ⟨hn, by omega⟩
    · simp [withKey, noKeys, hkk] at hw
  · cases k <;> simp [keyTypes, withKey, noKeys, valueRoom, authStrBlockMaxLen] <;> omega
  · simp [withKey, noKeys, Ne.symm hk] at hw

/-! ## Methods and algorithms -/

/-- The methods an initiator with a secret offers: CHAP only if it wants the target checked. -/
def methodOffer (rmt : Bool) : List UInt8 :=
  if rmt then aclChapOptionName else aclChapOptionName ++ 44 :: aclNoneOptionName

theorem methodOffer_short :
    NulFree (methodOffer rmt) ∧ (methodOffer rmt).length < 16 := by
  cases rmt <;> decide +kernel

def methodChoices (rmt : Bool) : List Int :=
  if rmt then [authMethodChap] else [authMethodChap, authOptionNone]

theorem algText_short (options : List Int) (h : ∀ o ∈ options, algOption o)
    (hlen : options.length ≤ authChapAlgMaxCount) :
    NulFree (algText options) ∧ (algText options).length < 16 := by
  cases options with
  | nil => simp [algText, NulFree]
  | cons o options =>
    have hl : (options.flatMap (fun o => [44, algDigit o])).length = 2 * options.length := by
      simp [List.length_flatMap, Nat.mul_comm]
    constructor
    · intro b hb
      simp only [algText, List.mem_cons, List.mem_flatMap, List.not_mem_nil, or_false] at hb
      rcases hb with rfl | ⟨x, hx, rfl | rfl⟩
      · exact (algDigit_decimal o (h o (by simp))).2.2
      · decide
      · exact (algDigit_decimal x (h x (by simp [hx]))).2.2
    · have hmax : authChapAlgMaxCount = 5 := rfl
      simp only [List.length_cons] at hlen
      simp only [algText, List.length_cons, hl]
      omega

theorem code_ne : a.code ≠ authOptionNotPresent ∧ a.code ≠ authOptionReject ∧
    chapAlgOfCode a.code = some a ∧ algOption a.code := by
  unfold algOption
  cases a <;> decide

theorem algText_code_short :
    NulFree (algText [a.code]) ∧ (algText [a.code]).length < 16 :=
  algText_short [a.code] (by simpa using (code_ne a).2.2.2) (by simp [authChapAlgMaxCount])

/-! ## Responses -/

def response (D : Digest) (a : ChapAlg) (id : UInt8) (secret challenge : List UInt8) : List UInt8 :=
  D.hash a (id :: secret ++ challenge)

theorem response_take (secret challenge : List UInt8) :
    (response D a id secret challenge).take a.rspLen = response D a id secret challenge :=
  List.take_of_length_le (by rw [response, D.hash_length])

def responseText (D : Digest) (a : ChapAlg) (id : UInt8) (secret challenge : List UInt8) :
    List UInt8 :=
  (aclDataToText (response D a id secret challenge) authStrMaxLen).2

theorem rspLen_bounds : 0 < a.rspLen ∧ a.rspLen ≤ 32 := by cases a <;> decide

theorem response_ne_nil (secret challenge : List UInt8) :
    response D a id secret challenge ≠ [] := by
  intro h
  have hl := D.hash_length a (id :: secret ++ challenge)
  rw [show D.hash a (id :: secret ++ challenge) = [] from h] at hl
  have hb := rspLen_bounds a
  simp at hl
  omega

theorem responseText_short (secret challenge : List UInt8) :
    NulFree (responseText D a id secret challenge) ∧
      (responseText D a id secret challenge).length ≤ 66 := by
  have hl : (response D a id secret challenge).length = a.rspLen := D.hash_length a _
  have hb := rspLen_bounds a
  have ht := aclDataToText_text (response D a id secret challenge) authStrMaxLen
    (response_ne_nil D a id secret challenge) (by rw [hl]; unfold authStrMaxLen; omega)
  refine ⟨ht.1, ?_⟩
  rw [responseText, ht.2, hl]
  omega

theorem aclTextToData_responseText
    (secret challenge : List UInt8) :
    aclTextToData (some (responseText D a id secret challenge)) authStrMaxLen =
      some (response D a id secret challenge) := by
  have hl : (response D a id secret challenge).length = a.rspLen := D.hash_length a _
  have hb := rspLen_bounds a
  refine aclTextToData_aclDataToText _ authStrMaxLen authStrMaxLen
    (response_ne_nil D a id secret challenge) ?_ ?_ ?_ <;>
    rw [hl] <;> simp only [authStrMaxLen, authLargeBinaryMaxLen] <;> omega

/-! ## Challenges -/

def challengeOf (a : ChapAlg) (bytes : Nat → UInt8) : List UInt8 := (List.range a.rspLen).map bytes

theorem challengeOf_bounds (bytes : Nat → UInt8) :
    challengeOf a bytes ≠ [] ∧ (challengeOf a bytes).length ≤ 32 := by
  have hb := rspLen_bounds a
  have hl : (challengeOf a bytes).length = a.rspLen := by simp [challengeOf]
  exact ⟨fun h => by rw [h] at hl; simp at hl; omega, by omega⟩

/-- A message that carries a challenge besides the values `f`. -/
def withChallenge (f : KeyType → Option (List UInt8)) (id : UInt8) : KeyType → Option (List UInt8) :=
  withKey (withKey f .chapIdentifier (decimal id.toNat)) .chapChallenge []

theorem decimal_short : (decimal id.toNat).length ≤ 3 := by
  have hall : ∀ n < 256, (decimal n).length ≤ 3 := by decide +kernel
  exact hall _ id.toNat_lt

theorem Filled.challenge
    (h : Filled b f n) (id : UInt8) (hi : f .chapIdentifier = none) (hc : f .chapChallenge = none)
    (hn : n ≤ 512) :
    Filled (aclSetKeyValue (aclSetKeyValue b .chapIdentifier (some (decimal id.toNat))) .chapChallenge
      (some [])) (withChallenge f id) (n + 5) := by
  have hd := decimal_short id
  have hstr : authStrMaxLen = 256 := rfl
  have hblk : authStrBlockMaxLen = 1024 := rfl
  have h1 := h.set .chapIdentifier (decimal id.toNat) hi (decimal_nulFree _) (by omega) (by omega)
  have h2 := h1.set .chapChallenge [] (by simp [withKey, hc]) (by simp [NulFree]) (by simp [hstr])
    (by simp; omega)
  exact ⟨h2.holds, h2.length.trans (by simp; omega)⟩

theorem Sendable.challenge (h : Sendable f) (id : UInt8)
    (hi : f .chapIdentifier = none) (hc : f .chapChallenge = none)
    (hroom : (keyTypes.map (fun k => valueRoom (f k))).sum ≤ 512) : Sendable (withChallenge f id) := by
  have hd := decimal_short id
  have hstr : authStrMaxLen = 256 := rfl
  refine ⟨fun k v hv => ?_, ?_, fun v hv => ?_⟩
  · by_cases h1 : k = .chapChallenge
    · subst h1
      simp only [withChallenge, withKey, Function.update_self, Option.some.injEq] at hv
      subst hv
      simp [NulFree, hstr]
    · by_cases h2 : k = .chapIdentifier
      · subst h2
        simp only [withChallenge, withKey, ne_eq, h1, not_false_eq_true, Function.update_of_ne,
          Function.update_self, Option.some.injEq] at hv
        subst hv
        exact ⟨decimal_nulFree _, by omega⟩
      · simp only [withChallenge, withKey, ne_eq, h1, h2, not_false_eq_true,
          Function.update_of_ne] at hv
        exact h.short k v hv
  · simp [keyTypes, withChallenge, withKey, valueRoom, hi, hc, authStrBlockMaxLen] at hroom ⊢
    omega
  · simp only [withChallenge, withKey, Function.update_self, Option.some.injEq] at hv
    exact hv.symm

/-! ## The messages after the algorithms -/

/-- The values of the target's second message. -/
def challengeKeys (a : ChapAlg) (id : UInt8) : KeyType → Option (List UInt8) :=
  withChallenge (withKey noKeys .chapAlg (algText [a.code])) id

theorem challengeKeys_sendable : Sendable (challengeKeys a id) := by
  have hlen := (algText_code_short a).2
  refine (sendable_single .chapAlg (algText_code_short a) (by decide)).challenge id rfl rfl ?_
  simp [keyTypes, withKey, noKeys, valueRoom]
  omega

def answerKeys (rsp name : List UInt8) : KeyType → Option (List UInt8) :=
  withKey (withKey noKeys .chapRsp rsp) .chapUsername name

theorem Filled.answer (hr : NulFree rsp ∧ rsp.length ≤ 66)
    (hn : NulFree name ∧ name.length < authStrMaxLen) :
    Filled (aclSetKeyValue (aclSetKeyValue aclInitKeyBlk .chapRsp (some rsp)) .chapUsername
      (some name)) (answerKeys rsp name) 325 := by
  have hstr : authStrMaxLen = 256 := rfl
  have hblk : authStrBlockMaxLen = 1024 := rfl
  have h1 := (Filled.init false).set .chapRsp rsp rfl hr.1 (by omega) (by omega)
  have h2 := h1.set .chapUsername name rfl hn.1 hn.2 (by omega)
  exact ⟨h2.holds, h2.length.trans (by omega)⟩

theorem answerKeys_sendable (hr : NulFree rsp ∧ rsp.length ≤ 66)
    (hn : NulFree name ∧ name.length < authStrMaxLen) :
    Sendable (answerKeys rsp name) ∧
      (keyTypes.map (fun k => valueRoom (answerKeys rsp name k))).sum ≤ 512 := by
  have hstr : authStrMaxLen = 256 := rfl
  have hsum : (keyTypes.map (fun k => valueRoom (answerKeys rsp name k))).sum ≤ 512 := by
    simp [keyTypes, answerKeys, withKey, noKeys, valueRoom]
    omega
  refine ⟨⟨fun k v hv => ?_, hsum.trans (by decide), fun v hv => ?_⟩, hsum⟩
  · by_cases h1 : k = .chapUsername
    · subst h1
      simp only [answerKeys, withKey, Function.update_self, Option.some.injEq] at hv
      subst hv
      exact hn
    · by_cases h2 : k = .chapRsp
      · subst h2
        simp only [answerKeys, withKey, ne_eq, h1, not_false_eq_true, Function.update_of_ne,
          Function.update_self, Option.some.injEq] at hv
        subst hv
        exact ⟨hr.1, by omega⟩
      · simp [answerKeys, withKey, noKeys, h1, h2] at hv
  · simp [answerKeys, withKey, noKeys] at hv

/-- The values of an answer, with a challenge if the answering side wants its peer checked. -/
def replyKeys (rmt : Bool) (rsp name : List UInt8) (id : UInt8) : KeyType → Option (List UInt8) :=
  if rmt then withChallenge (answerKeys rsp name) id else answerKeys rsp name

theorem replyKeys_sendable
    (hr : NulFree rsp ∧ rsp.length ≤ 66) (hn : NulFree name ∧ name.length < authStrMaxLen) :
    Sendable (replyKeys rmt rsp name id) := by
  obtain ⟨hs, hroom⟩ := answerKeys_sendable rsp name hr hn
  cases rmt with
  | false => exact hs
  | true => exact hs.challenge id rfl rfl hroom

/-- The values of the target's last message. -/
def finalKeys (rmt : Bool) (rsp name : List UInt8) : KeyType → Option (List UInt8) :=
  if rmt then answerKeys rsp name else noKeys

theorem finalKeys_sendable (hr : NulFree rsp ∧ rsp.length ≤ 66)
    (hn : NulFree name ∧ name.length < authStrMaxLen) : Sendable (finalKeys rmt rsp name) := by
  cases rmt with
  | true => exact (answerKeys_sendable rsp name hr hn).1
  | false => exact ⟨nofun, by simp [keyTypes, finalKeys, noKeys, valueRoom], nofun⟩

end AuthMessages
