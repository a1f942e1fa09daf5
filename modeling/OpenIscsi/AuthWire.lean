import OpenIscsi.AuthRun

/-!
# Messages between two clients

What one side hands out through `acl_send_*` is what the other side reads. A key
block is described by the values that can be read from it, and a message by the
values of its keys; CHAP_C travels as the text of the challenge and is kept
empty in both blocks.
-/

namespace AuthWire

open CString AuthText AuthKeys AuthClient AuthApi AuthRun List

/-! ## Algorithm lists as texts -/

/-- The options an algorithm list may hold; each is one digit in the text. -/
def algOption (o : Int) : Prop := o = 1 ∨ o = 5 ∨ o = 6 ∨ o = 7 ∨ o = 8

def algDigit (o : Int) : UInt8 := UInt8.ofNat (48 + o.toNat)

def algText : List Int → List UInt8
  | [] => []
  | o :: options => algDigit o :: options.flatMap (fun o => [44, algDigit o])

theorem algDigit_decimal (o : Int) (h : algOption o) :
    decimal (o % 2 ^ 64).toNat = [algDigit o] ∧ algDigit o ≠ 44 ∧ algDigit o ≠ 0 := by
  rcases h with rfl | rfl | rfl | rfl | rfl <;> decide

variable {maxLength : Nat} {c : IscsiAcl} {b : KeyBlock} {f : KeyType → Option (List UInt8)}
  (options : List Int)

theorem joinOptions_append (h : ∀ o ∈ options, algOption o) (i : Nat)
    (scratch : List UInt8) (hn : NulFree scratch)
    (hlen : scratch.length + 2 * options.length < authStrMaxLen) :
    joinOptions (fun o => some (decimal (o % 2 ^ 64).toNat)) (i + 1) options scratch =
      scratch ++ options.flatMap (fun o => [44, algDigit o]) := by
  induction options generalizing i scratch with
  | nil => simp [joinOptions]
  | cons o options ih =>
    obtain ⟨hd, -, hz⟩ := algDigit_decimal o (h o (by simp))
    simp only [length_cons] at hlen
    have hc1 : cstr [44] = [44] := by decide
    have hc2 : cstr [algDigit o] = [algDigit o] := cstr_of_nulFree _ (by simpa [NulFree] using hz)
    have hcs := cstr_of_nulFree _ hn
    have hcat1 : strlcat scratch [44] authStrMaxLen = scratch ++ [44] := by
      rw [strlcat_fits _ _ _ (by rw [hcs, hc1]; simp; omega), hcs, hc1]
    have hn1 : NulFree (scratch ++ [44]) := by
      intro b hb
      rcases mem_append.mp hb with hb | hb
      · exact hn b hb
      · rw [mem_singleton.mp hb]
        decide
    have hcat2 : strlcat (scratch ++ [44]) [algDigit o] authStrMaxLen =
        scratch ++ [44] ++ [algDigit o] := by
      rw [strlcat_fits _ _ _ (by rw [cstr_of_nulFree _ hn1, hc2]; simp; omega),
        cstr_of_nulFree _ hn1, hc2]
    have hn2 : NulFree (scratch ++ [44] ++ [algDigit o]) := by
      intro b hb
      rcases mem_append.mp hb with hb | hb
      · exact hn1 b hb
      · rw [mem_singleton.mp hb]
        exact hz
    simp only [joinOptions, hd, Nat.add_eq_zero_iff, one_ne_zero, and_false, if_false, hcat1, hcat2]
    rw [ih (fun o ho => h o (by simp [ho])) (i + 1) _ hn2 (by simp; omega)]
    simp

/-- The text of an algorithm list, whatever the scratch buffer held. -/
theorem joinOptions_algText (hne : options ≠ []) (h : ∀ o ∈ options, algOption o)
    (hlen : options.length ≤ authChapAlgMaxCount) (scratch : List UInt8) :
    joinOptions (fun o => some (decimal (o % 2 ^ 64).toNat)) 0 options scratch = algText options := by
  cases options with
  | nil => exact absurd rfl hne
  | cons o options =>
    obtain ⟨hd, -, hz⟩ := algDigit_decimal o (h o (by simp))
    have hn : NulFree [algDigit o] := by simpa [NulFree] using hz
    have hcopy : (strlcpy [algDigit o] authStrMaxLen).1 = [algDigit o] := by
      rw [strlcpy_fits _ _ (by rw [cstr_of_nulFree _ hn]; simp [authStrMaxLen]), cstr_of_nulFree _ hn]
    simp only [joinOptions, hd, if_true, hcopy]
    have hmax : authChapAlgMaxCount = 5 := rfl
    have hstr : authStrMaxLen = 256 := rfl
    simp only [length_cons] at hlen
    rw [joinOptions_append options (fun o ho => h o (by simp [ho])) 0 _ hn (by simp; omega)]
    rfl

theorem tokensLoop_algText (o : Int) (options : List Int) (h : ∀ x ∈ o :: options, algOption x)
    (fuel : Nat) (hf : 2 * options.length < fuel) :
    tokensLoop fuel (algText (o :: options)) = (o :: options).map (fun o => [algDigit o]) := by
  induction options generalizing o fuel with
  | nil =>
    obtain ⟨-, hne, -⟩ := algDigit_decimal o (h o (by simp))
    cases fuel with
    | zero => omega
    | succ fuel =>
      have hc : (algDigit o != 44) = true := by simpa using hne
      cases fuel <;> simp [algText, tokensLoop, List.takeWhile, hc]
  | cons x options ih =>
    obtain ⟨-, hne, -⟩ := algDigit_decimal o (h o (by simp))
    have hc : (algDigit o != 44) = true := by simpa using hne
    cases fuel with
    | zero => omega
    | succ fuel =>
      simp only [length_cons] at hf
      have hrec := ih x (fun y hy => h y (by simp only [mem_cons] at hy ⊢; tauto)) fuel (by omega)
      have hitem : (algText (o :: x :: options)).takeWhile (fun b => b != 44) = [algDigit o] := by
        simp [algText, List.takeWhile, hc]
      have hdrop : (algText (o :: x :: options)).drop 2 = algText (x :: options) := by
        simp [algText]
      rw [show algText (o :: x :: options) = algDigit o :: (44 :: algText (x :: options)) from by
        simp [algText]] at hitem hdrop ⊢
      simp only [tokensLoop, hitem, length_singleton, hdrop, hrec, map_cons]

theorem tokens_algText (hne : options ≠ []) (h : ∀ o ∈ options, algOption o) :
    tokens (algText options) = options.map (fun o => [algDigit o]) := by
  cases options with
  | nil => exact absurd rfl hne
  | cons o options =>
    refine tokensLoop_algText o options h _ ?_
    have hl : (options.flatMap (fun o => [44, algDigit o])).length = 2 * options.length := by
      induction options with
      | nil => rfl
      | cons x options ih => simp [flatMap_cons, ih (by simp) (fun y hy => h y (by simp only [mem_cons] at hy ⊢; tauto))]; omega
    simp only [algText, length_cons, hl]
    omega

/-- An item is accepted exactly when its option is in the list. -/
theorem chapAlgItem_digit (list : List Int) (hl : ∀ o ∈ list, algOption o) (o : Int)
    (ho : algOption o) : chapAlgItem list [algDigit o] = if o ∈ list then some o else none := by
  have hnum : aclTextToNumber [algDigit o] = some o.toNat := by
    rcases ho with rfl | rfl | rfl | rfl | rfl <;> decide
  have hpred : ∀ x ∈ list, (x % 2 ^ 64 == ((o.toNat : Nat) : Int)) = (x == o) := by
    intro x hx
    rcases hl x hx with rfl | rfl | rfl | rfl | rfl <;>
      rcases ho with rfl | rfl | rfl | rfl | rfl <;> decide
  simp only [chapAlgItem, hnum]
  rw [find?_congr hpred]
  cases hfind : list.find? (fun x => x == o) with
  | none =>
    have hnot : o ∉ list := fun hmem => by simpa using find?_eq_none.mp hfind o hmem
    rw [if_neg hnot]
  | some x =>
    have hx : x = o := by simpa using find?_some hfind
    subst hx
    rw [if_pos (mem_of_find?_eq_some hfind)]

/-- The first option of the sender's list that the reader's list has. -/
theorem scan_algText (sender reader : List Int) (hne : sender ≠ []) (hs : ∀ o ∈ sender, algOption o)
    (hr : ∀ o ∈ reader, algOption o) (scratch : List UInt8) :
    (scanItems (chapAlgItem reader) (tokens (algText sender)) scratch).1 =
      sender.find? (fun o => o ∈ reader) := by
  rw [scanItems_fst, tokens_algText sender hne hs]
  clear hne
  induction sender with
  | nil => rfl
  | cons o sender ih =>
    rw [map_cons, findSome?_cons, chapAlgItem_digit reader hr o (hs o (by simp)),
      find?_cons]
    by_cases hmem : o ∈ reader
    · simp [hmem]
    · simp only [hmem, if_false, decide_false]
      exact ih (fun x hx => hs x (by simp [hx]))

/-! ## Key blocks by their values -/

/-- A block without errors that holds exactly the given values. -/
structure Holds (b : KeyBlock) (f : KeyType → Option (List UInt8)) : Prop where
  wf : b.WF
  clean : b.clean = true
  val : ∀ k, b.keyVal k = f k
  unset : ∀ k, f k = none → (b.key k).valueSet = false

/-- A fresh key whose value fits is added. -/
theorem Holds.set (h : Holds b f) (k : KeyType)
    (v : List UInt8) (hk : f k = none) (hfit : b.fits v) :
    Holds (aclSetKeyValue b k (some v)) (Function.update f k (some (cstr v))) ∧
      (aclSetKeyValue b k (some v)).strBlock.length = b.strBlock.length + (cstr v).length + 1 := by
  have hset := aclSetKeyValue_fits b k v (h.unset k hk) hfit
  refine ⟨⟨aclSetKeyValue_wf b k (some v) h.wf, ?_, fun k' => ?_, fun k' hk' => ?_⟩, ?_⟩
  · rw [hset]
    exact h.clean
  · rw [aclSetKeyValue_keyVal b k (some v) k' (h.wf.terminated k')]
    by_cases hkk : k' = k
    · subst hkk
      simp [h.unset k' hk, hfit]
    · simp [hkk, h.val k']
  · by_cases hkk : k' = k
    · subst hkk
      simp at hk'
    · rw [Function.update_of_ne hkk] at hk'
      rw [hset]
      simp only [Function.update_of_ne hkk]
      exact h.unset k' hk'
  · rw [hset]
    simp
    omega

theorem Holds.mark (h : Holds b f)
    (k : KeyType) : Holds (b.markProcessed k) f := by
  have hkey : ∀ k', ((b.markProcessed k).key k').valueSet = (b.key k').valueSet ∧
      ((b.markProcessed k).key k').present = (b.key k').present ∧
      ((b.markProcessed k).key k').string = (b.key k').string := by
    intro k'
    by_cases hkk : k' = k
    · subst hkk
      simp [KeyBlock.markProcessed, KeyBlock.setKey]
    · simp [KeyBlock.markProcessed, KeyBlock.setKey, hkk]
  refine ⟨⟨fun k' hp => ?_, fun k' hp => ?_⟩, h.clean, fun k' => ?_, fun k' hk' => ?_⟩
  · obtain ⟨h1, h2, -⟩ := hkey k'
    rw [h1]
    exact h.wf.set_of_present k' (h2 ▸ hp)
  · obtain ⟨-, h2, h3⟩ := hkey k'
    rw [h3]
    exact h.wf.terminated k' (h2 ▸ hp)
  · rw [markProcessed_keyVal]
    exact h.val k'
  · rw [(hkey k').1]
    exact h.unset k' hk'

/-- No key is left unread when every value was asked for. -/
theorem unexpectedKey_false (b : KeyBlock)
    (h : ∀ k, b.keyVal k ≠ none → (b.key k).processed = true) : b.unexpectedKey = false := by
  unfold KeyBlock.unexpectedKey
  rw [any_eq_false]
  intro k _
  by_cases hp : (b.key k).present = true
  · simp [h k (by simp [KeyBlock.keyVal, hp])]
  · simp [hp]

/-- No key is unexpected when every value was read. -/
theorem Holds.allRead (h : Holds b f)
    (hread : ∀ k, f k ≠ none → (b.key k).processed = true) : b.unexpectedKey = false :=
  unexpectedKey_false b (fun k hk => hread k (by rw [h.val] at hk; exact hk))

@[simp] theorem markProcessed_processed (b : KeyBlock) (k k' : KeyType) :
    ((b.markProcessed k).key k').processed = (decide (k' = k) || (b.key k').processed) := by
  by_cases hkk : k' = k
  · subst hkk
    simp [KeyBlock.markProcessed, KeyBlock.setKey]
  · simp [KeyBlock.markProcessed, KeyBlock.setKey, hkk]

/-! ## Sending -/

/-- What one side hands out for a message. -/
structure Sending where
  client : IscsiAcl
  transit : Bool
  keys : List (Int × Option (List UInt8))

/-- One key is asked for; a key that is not present is left out of the message. -/
def sendKey (maxLength : Nat) (r : IscsiAcl × List (Int × Option (List UInt8))) (k : KeyType) :
    IscsiAcl × List (Int × Option (List UInt8)) :=
  let sent := aclSendKeyVal r.1 k.code maxLength
  (sent.1, match sent.2.2 with
    | some v => r.2 ++ [(k.code, some v)]
    | none => r.2)

def sendAll (maxLength : Nat) (c : IscsiAcl) : Sending :=
  let t := aclSendTransitBit c
  let r := keyTypes.foldl (sendKey maxLength) (t.1, [])
  ⟨r.1, t.2.2, r.2⟩

/-- The keys of a message with the given values. -/
def keysOf (ks : List KeyType) (g : KeyType → Option (List UInt8)) :
    List (Int × Option (List UInt8)) :=
  ks.filterMap (fun k => (g k).map (fun v => (k.code, some v)))

def wire (challenge : List UInt8) (f : KeyType → Option (List UInt8)) (k : KeyType) :
    Option (List UInt8) :=
  if k = .chapChallenge then (f k).map (fun _ => challenge) else f k

/-- A client ready to hand out the values of its block. -/
structure CanSend (maxLength : Nat) (c : IscsiAcl) (f : KeyType → Option (List UInt8)) : Prop where
  signature : c.signature = aclSignature
  phase : Phase.canSend c.phase = true
  val : ∀ k, c.sendKeyBlock.keyVal k = f k
  short : ∀ k v, k ≠ .chapChallenge → f k = some v → NulFree v ∧ v.length < maxLength
  challenge : f .chapChallenge ≠ none → (aclDataToText c.sendChapChallenge maxLength).1 = false

/-- Reading a key to send it changes only which keys count as processed. -/
theorem aclSendKeyVal_value
    (h : CanSend maxLength c f) (k : KeyType) :
    aclSendKeyVal c k.code maxLength =
      ({ c with sendKeyBlock := c.sendKeyBlock.markProcessed k }, .noError,
        wire (aclDataToText c.sendChapChallenge maxLength).2 f k) := by
  have hval := h.val k
  simp only [aclSendKeyVal, h.signature, ne_eq, not_true_eq_false, if_false, h.phase,
    Bool.not_true, Bool.false_eq_true, keyTypeOfInt_code, aclGetKeyVal, hval]
  cases hf : f k with
  | none =>
    by_cases hk : k = .chapChallenge
    · subst hk
      simp [wire, hf]
    · simp [wire, hk, hf]
  | some v =>
    by_cases hk : k = .chapChallenge
    · subst hk
      have hok := h.challenge (by simp [hf])
      simp [wire, hok, hf]
    · obtain ⟨hn, hlen⟩ := h.short k v hk hf
      have hcopy := strlcpy_fits v maxLength (by rw [cstr_of_nulFree _ hn]; exact hlen)
      rw [cstr_of_nulFree _ hn] at hcopy
      simp only [hk, if_false, hcopy]
      rw [if_neg (by omega)]
      simp [wire, hk, hf]

theorem CanSend.mark
    (h : CanSend maxLength c f) (k : KeyType) :
    CanSend maxLength { c with sendKeyBlock := c.sendKeyBlock.markProcessed k } f :=
  ⟨h.signature, h.phase, fun k' => (markProcessed_keyVal _ k k').trans (h.val k'), h.short,
    h.challenge⟩

theorem sendKey_foldl (ks : List KeyType)
    (c : IscsiAcl) (acc : List (Int × Option (List UInt8))) (h : CanSend maxLength c f) :
    ks.foldl (sendKey maxLength) (c, acc) =
      ({ c with sendKeyBlock := ks.foldl KeyBlock.markProcessed c.sendKeyBlock },
        acc ++ keysOf ks (wire (aclDataToText c.sendChapChallenge maxLength).2 f)) := by
  induction ks generalizing c acc with
  | nil => simp [keysOf]
  | cons k ks ih =>
    have hstep : sendKey maxLength (c, acc) k =
        ({ c with sendKeyBlock := c.sendKeyBlock.markProcessed k },
          acc ++ keysOf [k] (wire (aclDataToText c.sendChapChallenge maxLength).2 f)) := by
      simp only [sendKey, aclSendKeyVal_value h k]
      cases hw : wire (aclDataToText c.sendChapChallenge maxLength).2 f k <;> simp [keysOf, hw]
    rw [foldl_cons, hstep, ih _ _ (h.mark k)]
    have hcons : ∀ g, keysOf [k] g ++ keysOf ks g = keysOf (k :: ks) g := by
      intro g
      simp [keysOf, ← filterMap_append]
    rw [append_assoc, hcons]
    rfl

/-- Everything a client has ready is handed out, and only the marks change. -/
theorem sendAll_value
    (h : CanSend maxLength c f) :
    ∃ b : KeyBlock, b.transitBit = c.sendKeyBlock.transitBit ∧
      sendAll maxLength c =
        ⟨{ c with sendKeyBlock := b }, c.sendKeyBlock.transitBit,
          keysOf keyTypes (wire (aclDataToText c.sendChapChallenge maxLength).2 f)⟩ := by
  have hbit : aclSendTransitBit c = (c, .noError, c.sendKeyBlock.transitBit) := by
    simp [aclSendTransitBit, h.signature, h.phase]
  refine ⟨keyTypes.foldl KeyBlock.markProcessed c.sendKeyBlock, ?_, ?_⟩
  · rfl
  · unfold sendAll
    rw [hbit]
    dsimp only
    rw [sendKey_foldl keyTypes c [] h]
    rfl

/-! ## Receiving -/

/-- What a block keeps of the values of a message. -/
def stored (g : KeyType → Option (List UInt8)) (k : KeyType) : Option (List UInt8) :=
  if k = .chapChallenge then (g k).map (fun _ => []) else g k

def keyRoom (g : KeyType → Option (List UInt8)) (k : KeyType) : Nat :=
  match stored g k with
  | some v => v.length + 1
  | none => 0

/-- The values can all be taken in. -/
structure Acceptable (g : KeyType → Option (List UInt8)) : Prop where
  short : ∀ k v, stored g k = some v → NulFree v ∧ v.length < authStrMaxLen
  room : (keyTypes.map (keyRoom g)).sum ≤ authStrBlockMaxLen

/-- The client while the keys `done` of a message have been read. -/
structure Took (g : KeyType → Option (List UInt8)) (c : IscsiAcl) (done : List KeyType)
    (d : IscsiAcl) : Prop where
  holds : Holds d.recvKeyBlock (fun k => if k ∈ done then stored g k else none)
  unread : ∀ k, (d.recvKeyBlock.key k).processed = false
  length : d.recvKeyBlock.strBlock.length = (done.map (keyRoom g)).sum
  transit : d.recvKeyBlock.transitBit = c.recvKeyBlock.transitBit
  rest : d = { c with
    recvKeyBlock := d.recvKeyBlock
    recvChapChallenge := if .chapChallenge ∈ done ∧ (g .chapChallenge).isSome then
      aclTextToData (g .chapChallenge) authLargeBinaryMaxLen else c.recvChapChallenge }

theorem aclSetKeyValue_processed (b : KeyBlock) (k : KeyType) (v : List UInt8)
    (hset : (b.key k).valueSet = false) (hfit : b.fits v) (k' : KeyType) :
    ((aclSetKeyValue b k (some v)).key k').processed = (b.key k').processed := by
  rw [aclSetKeyValue_fits b k v hset hfit]
  by_cases hkk : k' = k
  · subst hkk
    simp
  · simp [hkk]

/-- One key of a message is taken in. -/
theorem Took.step {g : KeyType → Option (List UInt8)} {d : IscsiAcl} {done : List KeyType}
    (h : Took g c done d) (hs : c.signature = aclSignature)
    (hp : c.phase = .negotiate ∨ c.phase = .authenticate) (k : KeyType) (hk : k ∉ done)
    (v : List UInt8) (hv : g k = some v)
    (hshort : ∀ v, stored g k = some v → NulFree v ∧ v.length < authStrMaxLen)
    (hroom : ((done ++ [k]).map (keyRoom g)).sum ≤ authStrBlockMaxLen) :
    Took g c (done ++ [k]) (aclRecvKeyValue d k.code (some v)).1 := by
  have hds : d.signature = aclSignature := by rw [h.rest]; exact hs
  have hdp : ¬ (d.phase ≠ .negotiate ∧ d.phase ≠ .authenticate) := by
    rw [h.rest]
    rintro ⟨h1, h2⟩
    rcases hp with hp | hp
    · exact h1 hp
    · exact h2 hp
  obtain ⟨w, hw, hrecv⟩ : ∃ w, stored g k = some w ∧
      (aclRecvKeyValue d k.code (some v)).1 = { d with
        recvKeyBlock := aclSetKeyValue d.recvKeyBlock k (some w)
        recvChapChallenge := if k = .chapChallenge then aclTextToData (some v) authLargeBinaryMaxLen
          else d.recvChapChallenge } := by
    rw [aclRecvKeyValue, if_neg (not_not.mpr hds), if_neg hdp, keyTypeOfInt_code]
    by_cases hkc : k = .chapChallenge
    · subst hkc
      exact ⟨[], by simp [stored, hv], by simp⟩
    · refine ⟨v, by simp [stored, hkc, hv], ?_⟩
      cases k with
      | chapChallenge => exact absurd rfl hkc
      | _ => simp
  obtain ⟨hn, hlen⟩ := hshort w hw
  have hcw := cstr_of_nulFree w hn
  have hkr : keyRoom g k = w.length + 1 := by simp [keyRoom, hw]
  simp only [map_append, sum_append, map_cons, map_nil, sum_cons,
    sum_nil, hkr] at hroom
  have hfit : d.recvKeyBlock.fits w := by
    refine ⟨by rw [hcw]; exact hlen, ?_⟩
    rw [hcw, h.length]
    omega
  have hnone : (fun k => if k ∈ done then stored g k else none) k = none := by simp [hk]
  obtain ⟨hholds, hl⟩ := h.holds.set k w hnone hfit
  rw [hrecv]
  refine ⟨?_, fun k' => ?_, ?_, ?_, ?_⟩
  · have hfun : (fun k' => if k' ∈ done ++ [k] then stored g k' else none) =
        Function.update (fun k' => if k' ∈ done then stored g k' else none) k (some (cstr w)) := by
      funext k'
      by_cases hkk : k' = k
      · subst hkk
        simp [hw, hcw]
      · simp [hkk]
    rw [hfun]
    exact hholds
  · rw [aclSetKeyValue_processed _ _ _ (h.holds.unset k hnone) hfit]
    exact h.unread k'
  · rw [hl, h.length, hcw]
    simp [hkr]
    omega
  · rw [aclSetKeyValue_transitBit]
    exact h.transit
  · have hr := h.rest
    by_cases hkc : k = .chapChallenge
    · subst hkc
      rw [hr]
      simp [hv]
    · have hmem : (.chapChallenge ∈ done ++ [k]) = (.chapChallenge ∈ done) := by
        simp [Ne.symm hkc]
      rw [hr]
      simp [hkc, hmem]

theorem Took.skip {g : KeyType → Option (List UInt8)} {d : IscsiAcl} {done : List KeyType}
    (h : Took g c done d) (k : KeyType) (hk : k ∉ done) (hv : g k = none) :
    Took g c (done ++ [k]) d := by
  have hst : stored g k = none := by simp [stored, hv]
  refine ⟨?_, h.unread, ?_, h.transit, ?_⟩
  · have hfun : (fun k' => if k' ∈ done ++ [k] then stored g k' else none) =
        (fun k' => if k' ∈ done then stored g k' else none) := by
      funext k'
      by_cases hkk : k' = k
      · subst hkk
        simp [hst]
      · simp [hkk]
    rw [hfun]
    exact h.holds
  · rw [h.length]
    simp [keyRoom, hst]
  · have hcond : (.chapChallenge ∈ done ++ [k] ∧ (g .chapChallenge).isSome = true) ↔
        (.chapChallenge ∈ done ∧ (g .chapChallenge).isSome = true) := by
      by_cases hkc : k = .chapChallenge
      · subst hkc
        simp [hv]
      · simp [Ne.symm hkc]
    simp only [hcond]
    exact h.rest

theorem recvKeys_took (g : KeyType → Option (List UInt8)) (c : IscsiAcl)
    (hs : c.signature = aclSignature) (hp : c.phase = .negotiate ∨ c.phase = .authenticate)
    (hshort : ∀ k v, stored g k = some v → NulFree v ∧ v.length < authStrMaxLen)
    (ks done : List KeyType) (d : IscsiAcl) (h : Took g c done d) (hnodup : (done ++ ks).Nodup)
    (hroom : ((done ++ ks).map (keyRoom g)).sum ≤ authStrBlockMaxLen) :
    Took g c (done ++ ks) (recvKeys d (keysOf ks g)) := by
  induction ks generalizing done d with
  | nil => simpa [keysOf, recvKeys] using h
  | cons k ks ih =>
    have hk : k ∉ done := fun hmem =>
      (nodup_append.mp hnodup).2.2 k hmem k (by simp) rfl
    have hassoc : done ++ k :: ks = (done ++ [k]) ++ ks := by simp
    rw [hassoc] at hnodup hroom ⊢
    have hroom' : ((done ++ [k]).map (keyRoom g)).sum ≤ authStrBlockMaxLen := by
      rw [map_append, sum_append] at hroom
      omega
    cases hv : g k with
    | none =>
      have hkeys : keysOf (k :: ks) g = keysOf ks g := by simp [keysOf, hv]
      rw [hkeys]
      exact ih _ _ (h.skip k hk hv) hnodup hroom
    | some v =>
      have hkeys : recvKeys d (keysOf (k :: ks) g) =
          recvKeys (aclRecvKeyValue d k.code (some v)).1 (keysOf ks g) := by
        simp [keysOf, hv, recvKeys]
      rw [hkeys]
      exact ih _ _ (h.step hs hp k hk v hv (hshort k) hroom') hnodup hroom

/-- The client that has read the values `g` and is ready for `acl_recv_end`. -/
def taken (c : IscsiAcl) (phase : Phase) (g : KeyType → Option (List UInt8)) (b : KeyBlock) :
    IscsiAcl :=
  { c with
    phase := phase
    recvInProgressFlag := true
    transitBitSentFlag := c.sendKeyBlock.transitBit
    sendKeyBlock := aclInitKeyBlk
    recvKeyBlock := b
    recvChapChallenge := if (g .chapChallenge).isSome then
      aclTextToData (g .chapChallenge) authLargeBinaryMaxLen else c.recvChapChallenge }

def readPhase : Phase → Phase
  | .configure => .negotiate
  | p => p

/-- A message of acceptable values is read in full. -/
theorem received_taken (c : IscsiAcl) (transit : Bool) (g : KeyType → Option (List UInt8))
    (env : Env) (hs : c.signature = aclSignature)
    (hp : c.phase = .configure ∨ c.phase = .negotiate ∨ c.phase = .authenticate)
    (hin : c.recvInProgressFlag = false) (hg : Acceptable g) :
    ∃ b : KeyBlock, Holds b (stored g) ∧ (∀ k, (b.key k).processed = false) ∧
      b.transitBit = transit ∧
      received c ⟨transit, keysOf keyTypes g, env⟩ = taken c (readPhase c.phase) g b := by
  have hbegin : (aclRecvBegin c).1 = { c with
      phase := readPhase c.phase
      recvInProgressFlag := true
      transitBitSentFlag := c.sendKeyBlock.transitBit
      recvKeyBlock := aclInitKeyBlk
      sendKeyBlock := aclInitKeyBlk } := by
    rcases hp with hp | hp | hp <;> simp [aclRecvBegin, hs, hp, hin, aclNextPhase, readPhase]
  have hread : readPhase c.phase = .negotiate ∨ readPhase c.phase = .authenticate := by
    rcases hp with hp | hp | hp <;> simp [hp, readPhase]
  have hbit : (aclRecvTransitBit (aclRecvBegin c).1 transit).1 = { c with
      phase := readPhase c.phase
      recvInProgressFlag := true
      transitBitSentFlag := c.sendKeyBlock.transitBit
      recvKeyBlock := { aclInitKeyBlk with transitBit := transit }
      sendKeyBlock := aclInitKeyBlk } := by
    rw [hbegin]
    rcases hread with hr | hr <;> simp [aclRecvTransitBit, hs, hr]
  have hstart : Took g (aclRecvTransitBit (aclRecvBegin c).1 transit).1 []
      (aclRecvTransitBit (aclRecvBegin c).1 transit).1 := by
    rw [hbit]
    refine ⟨⟨⟨?_, ?_⟩, rfl, fun k => ?_, fun _ _ => rfl⟩, fun _ => rfl, rfl, rfl, by simp⟩
    · intro k hk
      simp [aclInitKeyBlk] at hk
    · intro k hk
      simp [aclInitKeyBlk] at hk
    · simp [KeyBlock.keyVal, aclInitKeyBlk]
  have htook := recvKeys_took g _ (by rw [hbit]; exact hs) (by rw [hbit]; exact hread) hg.short
    keyTypes [] _ hstart (by decide) hg.room
  refine ⟨(received c ⟨transit, keysOf keyTypes g, env⟩).recvKeyBlock, ?_, htook.unread, ?_, ?_⟩
  · have hall : (fun k => if k ∈ [] ++ keyTypes then stored g k else none) = stored g := by
      funext k
      cases k <;> simp [keyTypes]
    rw [← hall]
    exact htook.holds
  · have ht := htook.transit
    rw [hbit] at ht
    exact (congrArg KeyBlock.transitBit (congrArg IscsiAcl.recvKeyBlock (by rw [received, hbit]))).trans ht
  · have hrest := htook.rest
    rw [hbit] at hrest
    have hmem : KeyType.chapChallenge ∈ [] ++ keyTypes := by decide
    simp only [hmem, true_and] at hrest
    rw [received, hbit]
    exact hrest

end AuthWire
