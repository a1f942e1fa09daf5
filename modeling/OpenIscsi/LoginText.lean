import OpenIscsi.Login

/-!
# The text of a login PDU

`iscsi_add_text` writes `key=value` and a NUL behind the text a PDU already has,
and records the new length in the 24 bit field of its header. The key loop of
`iscsi_process_login_response` reads such a text back with
`iscsi_find_key_value`. The encoder is modelled on the caller's buffer, with
the bounds check as the code makes it; the loop over any table of keys.
-/

namespace LoginText

open CString LoginKeys Login List

/-- A PDU under construction: the caller's buffer and `dlength`. -/
structure TextPdu where
  data : List UInt8
  dlength : Nat
  deriving DecidableEq, Repr

/-- What `iscsi_add_text` writes: key, separator, value and NUL. -/
def pairText (param value : List UInt8) : List UInt8 := param ++ 61 :: (value ++ [0])

def store (data : List UInt8) (offset : Nat) (bytes : List UInt8) : List UInt8 :=
  data.take offset ++ (bytes ++ data.drop (offset + bytes.length))

/-- `iscsi_add_text` and its return value; `hton24` keeps 24 bits. -/
def addText (maxDataLength : Nat) (pdu : TextPdu) (param value : List UInt8) : TextPdu × Bool :=
  let length := (cstr param).length + 1 + (cstr value).length + 1
  if maxDataLength ≤ pdu.dlength + length then (pdu, false)
  else
    (⟨store pdu.data pdu.dlength (pairText (cstr param) (cstr value)),
      (pdu.dlength + length) % 2 ^ 24⟩, true)

/-- Pairs are added one after the other; the second part are those whose call
returned 1. -/
def addPairs (maxDataLength : Nat) :
    List (List UInt8 × List UInt8) → TextPdu → TextPdu × List (List UInt8 × List UInt8)
  | [], pdu => (pdu, [])
  | (param, value) :: pairs, pdu =>
    let r := addText maxDataLength pdu param value
    let rest := addPairs maxDataLength pairs r.1
    (rest.1, if r.2 then (param, value) :: rest.2 else rest.2)

/-- The first key of a table that `iscsi_find_key_value` finds at the text, with
its value and the text at the end of the value. -/
def findKey {κ : Type} (name : κ → List UInt8) (keys : List κ) (text : List UInt8) :
    Option (κ × List UInt8 × List UInt8) :=
  keys.findSome? (fun k => (iscsiFindKeyValue (name k) text).map (fun v => (k, v)))

/-- The key loop over a text: NULs are skipped, then one key is taken. -/
def scanPairs {κ : Type} (name : κ → List UInt8) (keys : List κ) :
    Nat → List UInt8 → Option (List (κ × List UInt8))
  | 0, _ => some []
  | fuel + 1, text =>
    match text.dropWhile (fun b => b == 0) with
    | [] => some []
    | b :: rest =>
      match findKey name keys (b :: rest) with
      | none => none
      | some (k, value, valueEnd) =>
        (scanPairs name keys fuel valueEnd).map (fun pairs => (k, value) :: pairs)

/-! ## Writing -/

theorem pairText_length (param value : List UInt8) :
    (pairText param value).length = param.length + 1 + value.length + 1 := by
  simp only [pairText, length_append, length_cons, length_nil]
  omega

variable {bytes data : List UInt8} {offset : Nat}

theorem store_length (h : offset + bytes.length ≤ data.length) :
    (store data offset bytes).length = data.length := by
  simp only [store, length_append, length_take, length_drop]
  omega

theorem store_take (h : offset + bytes.length ≤ data.length) :
    (store data offset bytes).take (offset + bytes.length) = data.take offset ++ bytes := by
  have hlen : (data.take offset).length = offset := length_take_of_le (by omega)
  rw [store, ← append_assoc, take_left']
  rw [length_append, hlen]

theorem store_drop {n : Nat} (h : offset + bytes.length ≤ data.length)
    (hn : offset + bytes.length ≤ n) :
    (store data offset bytes).drop n = data.drop n := by
  have hlen : (data.take offset ++ bytes).length = offset + bytes.length := by
    rw [length_append, length_take_of_le (by omega)]
  rw [store, ← append_assoc, drop_append, drop_eq_nil_of_le (by omega), hlen,
    nil_append, drop_drop]
  congr 1
  omega

/-- A call that fails changes nothing, and no call writes at or beyond the limit. -/
theorem addText_bounded (maxDataLength : Nat) (pdu : TextPdu) (param value : List UInt8)
    (h : maxDataLength ≤ pdu.data.length) :
    ((addText maxDataLength pdu param value).2 = false →
      (addText maxDataLength pdu param value).1 = pdu) ∧
    (addText maxDataLength pdu param value).1.data.length = pdu.data.length ∧
    (addText maxDataLength pdu param value).1.data.drop maxDataLength =
      pdu.data.drop maxDataLength := by
  unfold addText
  dsimp only
  split
  · exact ⟨fun _ => rfl, rfl, rfl⟩
  · have hroom : pdu.dlength + (pairText (cstr param) (cstr value)).length ≤ pdu.data.length := by
      rw [pairText_length]
      omega
    refine ⟨fun hf => (nomatch hf), store_length hroom, store_drop hroom ?_⟩
    rw [pairText_length]
    omega

def pairsText (pairs : List (List UInt8 × List UInt8)) : List UInt8 :=
  pairs.flatMap (fun p => pairText p.1 p.2)

structure Holds (pdu : TextPdu) (text : List UInt8) : Prop where
  text_eq : pdu.data.take pdu.dlength = text
  length_eq : pdu.dlength = text.length

variable {value : List UInt8}

/-- A call that succeeds puts the pair behind the text. -/
theorem addText_holds {maxDataLength : Nat} (hmax : maxDataLength ≤ 2 ^ 24) {pdu : TextPdu}
    {text param : List UInt8} (hdata : maxDataLength ≤ pdu.data.length) (hp : NulFree param)
    (hv : NulFree value) (h : Holds pdu text)
    (hok : (addText maxDataLength pdu param value).2 = true) :
    Holds (addText maxDataLength pdu param value).1 (text ++ pairText param value) := by
  unfold addText at hok ⊢
  simp only [cstr_of_nulFree param hp, cstr_of_nulFree value hv] at hok ⊢
  split at hok
  · exact nomatch hok
  · rename_i hroom
    rw [if_neg hroom]
    have hlen := pairText_length param value
    have hmod : (pdu.dlength + (param.length + 1 + value.length + 1)) % 2 ^ 24 =
        pdu.dlength + (pairText param value).length := by
      rw [hlen, Nat.mod_eq_of_lt (by omega)]
    constructor
    · change (store _ _ _).take (_ % _) = _
      rw [hmod, store_take (by omega), h.text_eq]
    · change _ % _ = _
      rw [hmod, h.length_eq, length_append]

/-- The added pairs are exactly the text of the PDU. -/
theorem addPairs_holds {maxDataLength : Nat} (hmax : maxDataLength ≤ 2 ^ 24)
    (pairs : List (List UInt8 × List UInt8)) (hpairs : ∀ p ∈ pairs, NulFree p.1 ∧ NulFree p.2)
    (pdu : TextPdu) (text : List UInt8) (hdata : maxDataLength ≤ pdu.data.length)
    (h : Holds pdu text) :
    Holds (addPairs maxDataLength pairs pdu).1
      (text ++ pairsText (addPairs maxDataLength pairs pdu).2) := by
  induction pairs generalizing pdu text with
  | nil =>
    simp only [addPairs, pairsText, flatMap_nil, append_nil]
    exact h
  | cons p pairs ih =>
    obtain ⟨param, value⟩ := p
    obtain ⟨hp, hv⟩ := hpairs (param, value) mem_cons_self
    have hrest : ∀ p ∈ pairs, NulFree p.1 ∧ NulFree p.2 :=
      fun p hp => hpairs p (mem_cons_of_mem _ hp)
    obtain ⟨hsame, hlen, _⟩ := addText_bounded maxDataLength pdu param value hdata
    rw [addPairs]
    dsimp only
    cases hok : (addText maxDataLength pdu param value).2 with
    | false =>
      rw [hsame hok]
      exact ih hrest pdu text hdata h
    | true =>
      have hstep := addText_holds hmax hdata hp hv h hok
      have hnext := ih hrest _ _ (by rw [hlen]; exact hdata) hstep
      rw [append_assoc] at hnext
      exact hnext

/-! ## Reading back -/

/-- Keys as the login negotiation uses them. -/
def KeyOk (key : List UInt8) : Prop := key ≠ [] ∧ NulFree key ∧ ∀ b ∈ key, b ≠ 61

/-- At the text of a pair exactly its own key is found, with its value. -/
theorem iscsiFindKeyValue_pair {param key : List UInt8} (rest : List UInt8) (hp : NulFree param)
    (hp' : ∀ b ∈ param, b ≠ 61) (hk : NulFree key) (hk' : ∀ b ∈ key, b ≠ 61) (hv : NulFree value) :
    iscsiFindKeyValue param (pairText key value ++ rest) =
      if param = key then some (value, 0 :: rest) else none := by
  induction param generalizing key with
  | nil =>
    cases key with
    | nil =>
      have htake : (value ++ 0 :: rest).takeWhile (fun b => b != 0) = value :=
        cstr_append_nul value rest hv
      have hdrop : (value ++ 0 :: rest).dropWhile (fun b => b != 0) = 0 :: rest := by
        rw [dropWhile_append_of_pos (by simpa [NulFree] using hv)]
        rfl
      simp only [pairText, nil_append, cons_append, append_assoc,
        iscsiFindKeyValue, if_true, htake, hdrop]
    | cons c key =>
      have hc : c ≠ 61 := hk' c mem_cons_self
      simp only [pairText, cons_append, iscsiFindKeyValue, hc, if_false, reduceCtorEq]
  | cons b param ih =>
    have hb : b ≠ 0 := hp b mem_cons_self
    have hb' : b ≠ 61 := hp' b mem_cons_self
    cases key with
    | nil =>
      simp only [pairText, nil_append, cons_append, iscsiFindKeyValue, hb',
        reduceCtorEq, if_false, ite_self]
    | cons c key =>
      have hc : c ≠ 0 := hk c mem_cons_self
      have hrec := ih (fun x hx => hp x (mem_cons_of_mem _ hx))
        (fun x hx => hp' x (mem_cons_of_mem _ hx)) (fun x hx => hk x (mem_cons_of_mem _ hx))
        (fun x hx => hk' x (mem_cons_of_mem _ hx))
      simp only [pairText, cons_append] at hrec ⊢
      rw [iscsiFindKeyValue, if_neg hc, hrec]
      simp only [List.cons.injEq]
      by_cases hbc : b = c
      · simp only [hbc, if_true, true_and]
      · simp only [hbc, if_false, false_and]

/-- In a table with distinct names the loop finds the key of the pair. -/
theorem findKey_pair {κ : Type} (name : κ → List UInt8) (keys : List κ)
    (hkeys : ∀ k ∈ keys, KeyOk (name k)) {k : κ} (hk : k ∈ keys)
    (hinj : ∀ k' ∈ keys, name k' = name k → k' = k) (hv : NulFree value) (rest : List UInt8) :
    findKey name keys (pairText (name k) value ++ rest) = some (k, value, 0 :: rest) := by
  have hfind : ∀ k' ∈ keys, iscsiFindKeyValue (name k') (pairText (name k) value ++ rest) =
      if name k' = name k then some (value, 0 :: rest) else none := fun k' hk' =>
    iscsiFindKeyValue_pair rest (hkeys k' hk').2.1 (hkeys k' hk').2.2 (hkeys k hk).2.1
      (hkeys k hk).2.2 hv
  unfold findKey
  clear hkeys
  induction keys with
  | nil => exact nomatch hk
  | cons k' keys ih =>
    rw [findSome?_cons, hfind k' mem_cons_self]
    by_cases hname : name k' = name k
    · obtain rfl := hinj k' mem_cons_self hname
      rw [if_pos rfl]
      rfl
    · rw [if_neg hname]
      have hmem : k ∈ keys := by
        rcases mem_cons.1 hk with rfl | hmem
        · exact absurd rfl hname
        · exact hmem
      exact ih hmem (fun x hx => hinj x (mem_cons_of_mem _ hx))
        (fun x hx => hfind x (mem_cons_of_mem _ hx))

/-- The loop over the text of some pairs returns the pairs. -/
theorem scanPairs_pairsText {κ : Type} (name : κ → List UInt8) (keys : List κ)
    (hkeys : ∀ k ∈ keys, KeyOk (name k)) (hinj : ∀ k ∈ keys, ∀ k' ∈ keys, name k' = name k → k' = k)
    (pairs : List (κ × List UInt8)) (hpairs : ∀ p ∈ pairs, p.1 ∈ keys ∧ NulFree p.2)
    (nuls : List UInt8) (hnuls : ∀ b ∈ nuls, b = 0) (fuel : Nat) (hfuel : pairs.length < fuel) :
    scanPairs name keys fuel (nuls ++ pairsText (pairs.map (fun p => (name p.1, p.2)))) =
      some pairs := by
  induction pairs generalizing nuls fuel with
  | nil =>
    cases fuel with
    | zero => rfl
    | succ fuel =>
      have hdrop : nuls.dropWhile (fun b => b == 0) = [] := by
        rw [dropWhile_eq_nil_iff]
        intro b hb
        rw [hnuls b hb]
        rfl
      simp only [map_nil, pairsText, flatMap_nil, append_nil, scanPairs, hdrop]
  | cons p pairs ih =>
    obtain ⟨k, value⟩ := p
    obtain ⟨hk, hv⟩ := hpairs (k, value) mem_cons_self
    have hok := hkeys k hk
    cases fuel with
    | zero => exact absurd hfuel (Nat.not_lt_zero _)
    | succ fuel =>
      have hfuel' : pairs.length < fuel := Nat.lt_of_succ_lt_succ hfuel
      have htext : pairsText (((k, value) :: pairs).map (fun p => (name p.1, p.2))) =
          pairText (name k) value ++ pairsText (pairs.map (fun p => (name p.1, p.2))) := rfl
      have hfind := findKey_pair name keys hkeys hk (fun k' hk' => hinj k hk k' hk') hv
        (pairsText (pairs.map (fun p => (name p.1, p.2))))
      have hrec := ih (fun p hp => hpairs p (mem_cons_of_mem _ hp)) [0]
        (fun b hb => mem_singleton.1 hb) fuel hfuel'
      rw [htext]
      cases hname : name k with
      | nil => exact absurd hname hok.1
      | cons b rest =>
        have hb : b ≠ 0 := hok.2.1 b (by rw [hname]; exact mem_cons_self)
        have hdrop : (nuls ++ (pairText (b :: rest) value ++
            pairsText (pairs.map (fun p => (name p.1, p.2))))).dropWhile (fun b => b == 0) =
            pairText (b :: rest) value ++ pairsText (pairs.map (fun p => (name p.1, p.2))) := by
          rw [dropWhile_append_of_pos (by simpa using hnuls)]
          simp only [pairText, cons_append]
          rw [dropWhile_cons_of_neg (by simpa using hb)]
        rw [hname] at hfind
        rw [scanPairs, hdrop]
        simp only [pairText, cons_append] at hfind ⊢
        rw [hfind]
        dsimp only
        rw [singleton_append] at hrec
        rw [hrec]
        rfl

/-! ## Encoder and loop together -/

theorem addPairs_subset (maxDataLength : Nat) (pairs : List (List UInt8 × List UInt8))
    (pdu : TextPdu) : ∀ p ∈ (addPairs maxDataLength pairs pdu).2, p ∈ pairs := by
  induction pairs generalizing pdu with
  | nil => exact fun p hp => (nomatch hp)
  | cons q pairs ih =>
    intro p hp
    rw [addPairs] at hp
    dsimp only at hp
    split at hp
    · rcases mem_cons.1 hp with rfl | hp
      · exact mem_cons_self
      · exact mem_cons_of_mem _ (ih _ p hp)
    · exact mem_cons_of_mem _ (ih _ p hp)

/-- Every pair takes bytes of its own. -/
theorem length_le_pairsText (pairs : List (List UInt8 × List UInt8)) :
    pairs.length ≤ (pairsText pairs).length := by
  induction pairs with
  | nil => exact Nat.le_refl 0
  | cons p pairs ih =>
    have hlen := pairText_length p.1 p.2
    simp only [pairsText, flatMap_cons, length_append, length_cons] at ih ⊢
    omega

/-- What `iscsi_add_text` put into a PDU of at most `2^24` bytes is what the key
loop finds in it; a failing call changes nothing, and none writes too far. -/
theorem login_text_codec (maxDataLength : Nat) (hmax : maxDataLength ≤ 2 ^ 24)
    (data : List UInt8) (hdata : maxDataLength ≤ data.length)
    (pairs : List (List UInt8 × List UInt8)) (hpairs : ∀ p ∈ pairs, KeyOk p.1 ∧ NulFree p.2)
    (keys : List (List UInt8)) (hkeys : ∀ k ∈ keys, KeyOk k) (hall : ∀ p ∈ pairs, p.1 ∈ keys) :
    scanPairs id keys ((addPairs maxDataLength pairs ⟨data, 0⟩).1.dlength + 1)
        ((addPairs maxDataLength pairs ⟨data, 0⟩).1.data.take
          (addPairs maxDataLength pairs ⟨data, 0⟩).1.dlength) =
      some (addPairs maxDataLength pairs ⟨data, 0⟩).2 ∧
    (∀ pdu param value, (addText maxDataLength pdu param value).2 = false →
      (addText maxDataLength pdu param value).1 = pdu) ∧
    (∀ pdu param value, maxDataLength ≤ pdu.data.length →
      (addText maxDataLength pdu param value).1.data.length = pdu.data.length ∧
      (addText maxDataLength pdu param value).1.data.drop maxDataLength =
        pdu.data.drop maxDataLength) := by
  refine ⟨?_, ?_, ?_⟩
  · have hholds := addPairs_holds hmax pairs
      (fun p hp => ⟨(hpairs p hp).1.2.1, (hpairs p hp).2⟩) ⟨data, 0⟩ [] hdata ⟨rfl, rfl⟩
    rw [nil_append] at hholds
    have hadded := addPairs_subset maxDataLength pairs ⟨data, 0⟩
    have hfuel := length_le_pairsText (addPairs maxDataLength pairs ⟨data, 0⟩).2
    have hscan := scanPairs_pairsText id keys hkeys (fun k _ k' _ h => h)
      (addPairs maxDataLength pairs ⟨data, 0⟩).2
      (fun p hp => ⟨hall p (hadded p hp), (hpairs p (hadded p hp)).2⟩) []
      (fun b hb => (nomatch hb)) ((addPairs maxDataLength pairs ⟨data, 0⟩).1.dlength + 1)
      (by rw [hholds.length_eq]; omega)
    rw [hholds.text_eq]
    simp only [id_eq, Prod.mk.eta, map_id_fun', nil_append] at hscan
    exact hscan
  · intro pdu param value hf
    unfold addText at hf ⊢
    dsimp only at hf ⊢
    split at hf
    · rename_i hfull
      rw [if_pos hfull]
    · exact nomatch hf
  · intro pdu param value h
    exact (addText_bounded maxDataLength pdu param value h).2

/-- Two pairs, one key a beginning of the other. -/
theorem two_pairs_codec :
    scanPairs id [[65], [65, 66]] 9
      ((addPairs 16 [([65, 66], [61]), ([65], [])] ⟨List.replicate 16 7, 0⟩).1.data.take 8) =
      some [([65, 66], [61]), ([65], [])] :=
  (login_text_codec 16 (by decide) (List.replicate 16 7) (by decide) [([65, 66], [61]), ([65], [])]
    (by unfold KeyOk; decide +kernel) [[65], [65, 66]] (by unfold KeyOk; decide +kernel)
    (by decide)).1

/-- In a larger buffer the 24 bit length wraps: the call succeeds, and the loop
over the first `dlength` bytes finds nothing. -/
theorem long_text_lost :
    (addPairs (2 ^ 24 + 1) [([97], List.replicate (2 ^ 24 - 3) 98)]
      ⟨List.replicate (2 ^ 24 + 1) 0, 0⟩).2 = [([97], List.replicate (2 ^ 24 - 3) 98)] ∧
    (addPairs (2 ^ 24 + 1) [([97], List.replicate (2 ^ 24 - 3) 98)]
      ⟨List.replicate (2 ^ 24 + 1) 0, 0⟩).1.dlength = 0 ∧
    scanPairs id [[97]] 1
      ((addPairs (2 ^ 24 + 1) [([97], List.replicate (2 ^ 24 - 3) 98)]
        ⟨List.replicate (2 ^ 24 + 1) 0, 0⟩).1.data.take 0) = some [] := by
  have hkey : cstr [97] = [97] := rfl
  have hvalue : (cstr (List.replicate (2 ^ 24 - 3) 98)).length = 2 ^ 24 - 3 := by
    have hfree : NulFree (List.replicate (2 ^ 24 - 3) 98) := by
      intro b hb
      rw [eq_of_mem_replicate hb]
      decide
    rw [cstr_of_nulFree _ hfree, length_replicate]
  have hadd : ∀ data, addText (2 ^ 24 + 1) ⟨data, 0⟩ [97] (List.replicate (2 ^ 24 - 3) 98) =
      (⟨store data 0 (pairText [97] (cstr (List.replicate (2 ^ 24 - 3) 98))), 0⟩, true) := by
    intro data
    unfold addText
    simp only [hkey, hvalue]
    rw [if_neg (by decide)]
    rfl
  refine ⟨?_, ?_, ?_⟩
  · rw [addPairs, hadd]
    rfl
  · rw [addPairs, hadd]
    rfl
  · rw [take_zero]
    rfl

end LoginText
