import OpenIscsi.AuthClient
import OpenIscsi.Lib.Runs

/-!
# Key blocks as write-once maps

A run of `acl_set_key_value` calls on a fresh block. The first call for a key decides what the key
reads, and the flags record the calls that stored nothing. `acl_chk_key` then reads such a block.
-/

namespace AuthKeyMap

open CString AuthText AuthKeys AuthClient Runs List

abbrev Call := KeyType × Option (List UInt8)

def setOne (b : KeyBlock) (c : Call) : KeyBlock := aclSetKeyValue b c.1 c.2

def setAll (calls : List Call) : KeyBlock := run setOne aclInitKeyBlk calls

/-! ## The history of a block -/

/-- The call is the first for key `k`, and its value `w` fits. -/
def Stores (k : KeyType) (w : List UInt8) (before : List Call) (c : Call) : Prop :=
  c.1 = k ∧ k ∉ before.map Prod.fst ∧ ∃ v, c.2 = some v ∧ (setAll before).fits v ∧ w = cstr v

def Repeated (before : List Call) (c : Call) : Prop := c.1 ∈ before.map Prod.fst

/-- A first call with a value that is too long. -/
def TooLong (before : List Call) (c : Call) : Prop :=
  c.1 ∉ before.map Prod.fst ∧ ∃ v, c.2 = some v ∧ authStrMaxLen ≤ (cstr v).length

/-- A first call with a value that is short enough but has no room left. -/
def Unfit (before : List Call) (c : Call) : Prop :=
  c.1 ∉ before.map Prod.fst ∧
    ∃ v, c.2 = some v ∧ (cstr v).length < authStrMaxLen ∧ ¬ (setAll before).fits v

variable (calls : List Call) (k : KeyType)

theorem setAll_valueSet : ((setAll calls).key k).valueSet = true ↔ k ∈ calls.map Prod.fst := by
  refine run_induct setOne _ (fun calls b => (b.key k).valueSet = true ↔ k ∈ calls.map Prod.fst)
    (by simp [aclInitKeyBlk]) (fun calls c ih => ?_) calls
  rw [map_append, mem_append, ← ih, map_singleton, mem_singleton, setOne]
  generalize run _ _ calls = b
  have hupdate : ∀ e : AuthKey, e.valueSet = true →
      ((Function.update b.key c.1 e k).valueSet = true ↔ (b.key k).valueSet = true ∨ k = c.1) := by
    intro e he
    by_cases hk : k = c.1
    · simp [hk, he]
    · simp [hk]
  rcases aclSetKeyValue_cases b c.1 c.2 with
    ⟨hset, he⟩ | ⟨-, ⟨-, he⟩ | ⟨s, -, ⟨-, he⟩ | ⟨-, -, he⟩ | ⟨-, he⟩⟩⟩ <;> rw [he]
  · exact ⟨.inl, fun h => h.elim id fun h => h ▸ hset⟩
  all_goals exact hupdate _ rfl

theorem setAll_wf : (setAll calls).WF :=
  run_invariant setOne KeyBlock.WF (fun b c h => aclSetKeyValue_wf b c.1 c.2 h) _ aclInitKeyBlk_wf calls

/-- What a key reads is the value of the first call for it, if that value fitted. -/
theorem setAll_keyVal (w : List UInt8) :
    (setAll calls).keyVal k = some w ↔ Met (Stores k w) calls := by
  refine run_iff_met (I := fun b : KeyBlock => b.keyVal k = some w)
    (by simp [KeyBlock.keyVal, aclInitKeyBlk]) (fun calls c => ?_) calls
  obtain ⟨k', v⟩ := c
  have hwf := setAll_wf calls
  change (aclSetKeyValue (setAll calls) k' v).keyVal k = some w ↔
    (setAll calls).keyVal k = some w ∨ _
  rw [aclSetKeyValue_keyVal _ _ _ _ (hwf.terminated k), Stores, ← setAll_valueSet]
  generalize setAll calls = b at hwf
  by_cases hk : k = k'
  · subst k'
    have habsent : (b.key k).valueSet = false → b.keyVal k = none := by
      intro hunset
      refine if_neg fun hp => ?_
      rw [hwf.set_of_present k hp] at hunset
      cases hunset
    cases hset : (b.key k).valueSet with
    | true => simp
    | false =>
      rw [habsent hset]
      cases v with
      | none => simp
      | some s => by_cases hfit : b.fits s <;> simp [hfit, eq_comm]
  · simp [hk, Ne.symm hk]

/-- A call sets at most one flag, and which one says why it stored nothing. -/
theorem aclSetKeyValue_flags (b : KeyBlock) (v : Option (List UInt8)) :
    ((aclSetKeyValue b k v).dupSet = true ↔ b.dupSet = true ∨ (b.key k).valueSet = true) ∧
    ((aclSetKeyValue b k v).strTooLong = true ↔ b.strTooLong = true ∨ (b.key k).valueSet ≠ true ∧
      ∃ s, v = some s ∧ authStrMaxLen ≤ (cstr s).length) ∧
    ((aclSetKeyValue b k v).tooMuchData = true ↔ b.tooMuchData = true ∨ (b.key k).valueSet ≠ true ∧
      ∃ s, v = some s ∧ (cstr s).length < authStrMaxLen ∧ ¬ b.fits s) := by
  rcases aclSetKeyValue_cases b k v with
    ⟨hset, he⟩ | ⟨hset, ⟨rfl, he⟩ | ⟨s, rfl, ⟨hlen, he⟩ | ⟨hlen, hfit, he⟩ | ⟨hfit, he⟩⟩⟩ <;>
    rw [he, hset]
  · simp
  · simp [KeyBlock.mark, KeyBlock.setKey]
  · simp [KeyBlock.mark, KeyBlock.setKey, hlen, hlen.not_gt]
  · simp [KeyBlock.mark, KeyBlock.setKey, hlen, hfit]
  · simp [hfit, hfit.1]

theorem setAll_flags :
    ((setAll calls).dupSet = true ↔ Met Repeated calls) ∧
    ((setAll calls).strTooLong = true ↔ Met TooLong calls) ∧
    ((setAll calls).tooMuchData = true ↔ Met Unfit calls) := by
  refine ⟨run_iff_met (I := fun b : KeyBlock => b.dupSet = true) (by simp [aclInitKeyBlk]) ?_ calls,
    run_iff_met (I := fun b : KeyBlock => b.strTooLong = true) (by simp [aclInitKeyBlk]) ?_ calls,
    run_iff_met (I := fun b : KeyBlock => b.tooMuchData = true) (by simp [aclInitKeyBlk]) ?_ calls⟩
    <;> intro calls c
  · rw [Repeated, ← setAll_valueSet]
    exact (aclSetKeyValue_flags c.1 _ c.2).1
  · rw [TooLong, ← setAll_valueSet]
    exact (aclSetKeyValue_flags c.1 _ c.2).2.1
  · rw [Unfit, ← setAll_valueSet]
    exact (aclSetKeyValue_flags c.1 _ c.2).2.2

/-! ## Where the values lie -/

/-- The stored strings with their NULs lie in the block, one beside the other. -/
structure Packed (b : KeyBlock) : Prop where
  room : b.strBlock.length ≤ authStrBlockMaxLen
  inside : ∀ k w, b.keyVal k = some w → (b.key k).string + w.length + 1 ≤ b.strBlock.length
  apart : ∀ k k' w w', b.keyVal k = some w → b.keyVal k' = some w' → k ≠ k' →
    (b.key k).string + w.length + 1 ≤ (b.key k').string ∨
    (b.key k').string + w'.length + 1 ≤ (b.key k).string

theorem setAll_packed : Packed (setAll calls) := by
  refine run_induct setOne _ (fun _ b => Packed b) ⟨by decide, ?_, ?_⟩ (fun calls c ih => ?_) calls
  · simp [KeyBlock.keyVal, aclInitKeyBlk]
  · simp [KeyBlock.keyVal, aclInitKeyBlk]
  obtain ⟨k, v⟩ := c
  have hval := fun k' => aclSetKeyValue_keyVal (setAll calls) k v k' ((setAll_wf calls).terminated k')
  change Packed (setAll calls) at ih
  change Packed (aclSetKeyValue (setAll calls) k v)
  generalize setAll calls = b at ih hval
  rcases aclSetKeyValue_keeps_or b k v with ⟨hs, hk, -⟩ | ⟨s, rfl, hset, hfit⟩
  · have hval := setMark_keyVal b _ k hs hk
    have hstring : ∀ k', ((aclSetKeyValue b k v).key k').string = (b.key k').string := by
      intro k'
      rcases hk with hk | hk
      · rw [hk]
      · by_cases he : k' = k <;> simp [hk, he]
    constructor
    · rw [hs]
      exact ih.room
    · simpa only [hval, hstring, hs] using ih.inside
    · simpa only [hval, hstring] using ih.apart
  · have hself : ∀ w, (aclSetKeyValue b k (some s)).keyVal k = some w → w = cstr s := by
      intro w hw
      simpa [hval, hset, hfit, eq_comm] using hw
    have hother : ∀ k', k' ≠ k → (aclSetKeyValue b k (some s)).keyVal k' = b.keyVal k' := by
      intro k' hk'
      rw [hval, if_neg (fun h => hk' h.1)]
    rw [aclSetKeyValue_fits b k s hset hfit] at hself hother ⊢
    refine ⟨?_, fun k₁ w hw => ?_, fun k₁ k₂ w w' hw hw' hne => ?_⟩
    · simpa [Nat.add_assoc] using hfit.2
    · by_cases h₁ : k₁ = k
      · subst k₁
        simp [hself w hw, Nat.add_assoc]
      · have hin := ih.inside k₁ w (hother k₁ h₁ ▸ hw)
        simp only [Function.update_of_ne h₁, length_append]
        omega
    · by_cases h₁ : k₁ = k
      · subst k₁
        have h₂ := hne.symm
        simp only [Function.update_self, Function.update_of_ne h₂]
        exact .inr (ih.inside k₂ w' (hother k₂ h₂ ▸ hw'))
      · by_cases h₂ : k₂ = k
        · subst k₂
          simp only [Function.update_self, Function.update_of_ne h₁]
          exact .inl (ih.inside k₁ w (hother k₁ h₁ ▸ hw))
        · simp only [Function.update_of_ne h₁, Function.update_of_ne h₂]
          exact ih.apart k₁ k₂ w w' (hother k₁ h₁ ▸ hw) (hother k₂ h₂ ▸ hw') hne

/-! ## Choosing an option -/

/-- The bytes the scan writes to the scratch buffer, each with its offset: every item it looks at
is copied to offset 0 and ended by a NUL. -/
def scratchWrites (accept : List UInt8 → Option Int) : List (List UInt8) → List (UInt8 × Nat)
  | [] => []
  | item :: items =>
    (item ++ [0]).zipIdx ++ if (accept item).isSome then [] else scratchWrites accept items

/-- The client, the negotiated option and the writes to `scratch_key_value`. -/
def aclChkKey (c : IscsiAcl) (k : KeyType) (optionList : List Int)
    (valueToText : Int → Option (List UInt8)) : IscsiAcl × Int × List (UInt8 × Nat) :=
  let r := aclGetKeyVal c.recvKeyBlock k
  let c := { c with recvKeyBlock := r.2 }
  match r.1 with
  | none => (c, authOptionNotPresent, [])
  | some s =>
    let accept := optionItem optionList valueToText
    let scan := scanItems accept (tokens s) c.scratchKeyValue
    ({ c with scratchKeyValue := scan.2 }, scan.1.getD authOptionReject,
      scratchWrites accept (tokens s))

theorem aclChkAuthMethodKey_eq (c : IscsiAcl) :
    aclChkAuthMethodKey c =
      let r := aclChkKey c .authMethod c.authMethodValidList aclAuthmethodOptnToText
      { r.1 with negotiatedAuthMethod := r.2.1 } := by
  unfold aclChkAuthMethodKey aclChkKey
  dsimp only
  cases (aclGetKeyVal c.recvKeyBlock .authMethod).1 <;> rfl

theorem scratchWrites_lt (accept : List UInt8 → Option Int) {n : Nat} {items : List (List UInt8)}
    (h : ∀ i ∈ items, i.length < n) : ∀ p ∈ scratchWrites accept items, p.2 < n := by
  induction items with
  | nil => exact fun p hp => absurd hp not_mem_nil
  | cons item items ih =>
    intro p hp
    rcases mem_append.1 hp with hp | hp
    · have hlt := snd_lt_of_mem_zipIdx hp
      have hitem := h item mem_cons_self
      rw [length_append] at hlt
      simp at hlt
      omega
    · split at hp
      · exact absurd hp not_mem_nil
      · exact ih (fun i hi => h i (mem_cons_of_mem _ hi)) p hp

/-- The items of a text hold no comma; each is followed by one in the text, the last perhaps not. -/
theorem tokens_spec (s : List UInt8) :
    (∀ i ∈ tokens s, (44 : UInt8) ∉ i) ∧
    ((tokens s).flatMap (· ++ [44]) = s ∨ (tokens s).flatMap (· ++ [44]) = s ++ [44]) := by
  unfold tokens
  generalize hn : s.length = n
  have hle : s.length ≤ n := hn.le
  clear hn
  induction n generalizing s with
  | zero =>
    obtain rfl := eq_nil_of_length_eq_zero (Nat.le_zero.1 hle)
    simp [tokensLoop]
  | succ n ih =>
    cases s with
    | nil => simp [tokensLoop]
    | cons x s =>
      rw [tokensLoop]
      · generalize hs : x :: s = t at hle ⊢
        have hsplit := takeWhile_append_dropWhile (p := fun b => b != 44) (l := t)
        have hitem : (44 : UInt8) ∉ t.takeWhile (fun b => b != 44) :=
          fun h => by simpa using mem_takeWhile_imp h
        generalize t.takeWhile (fun b => b != 44) = item at hsplit hitem ⊢
        cases hrest : t.dropWhile (fun b => b != 44) with
        | nil =>
          rw [hrest, append_nil] at hsplit
          subst hsplit
          rw [drop_eq_nil_of_le (Nat.le_succ _)]
          have hnil : tokensLoop n [] = [] := by cases n <;> rfl
          simp [hnil, hitem]
        | cons c rest =>
          obtain rfl : c = 44 := by
            have hhead := head_dropWhile_not (fun b => b != 44) (l := t) (by simp [hrest])
            simpa [hrest] using hhead
          rw [hrest] at hsplit
          have hdrop : t.drop (item.length + 1) = rest := by
            rw [← hsplit, drop_append]
            simp
          have hlen : rest.length ≤ n := by
            rw [← hsplit, length_append, length_cons] at hle
            omega
          obtain ⟨hfree, hjoin⟩ := ih rest hlen
          rw [hdrop, ← hsplit]
          simp only [forall_mem_cons, flatMap_cons]
          refine ⟨⟨hitem, hfree⟩, hjoin.imp (fun h => ?_) (fun h => ?_)⟩ <;> simp [h]
      · exact fun h => cons_ne_nil _ _ h

/-- What the scan picks from a list of items: the option of the first item that is offered. -/
def Picks (optionList : List Int) (valueToText : Int → Option (List UInt8))
    (items : List (List UInt8)) (o : Int) : Prop :=
  (∃ before item after, items = before ++ item :: after ∧
    (∀ i ∈ before, ∀ x ∈ optionList, valueToText x ≠ some i) ∧
    o ∈ optionList ∧ valueToText o = some item) ∨
  (∀ i ∈ items, ∀ x ∈ optionList, valueToText x ≠ some i) ∧ o = authOptionReject

theorem scan_picks (optionList : List Int) (valueToText : Int → Option (List UInt8))
    (items : List (List UInt8)) :
    Picks optionList valueToText items
      ((items.findSome? (optionItem optionList valueToText)).getD authOptionReject) := by
  have hnone : ∀ i, optionItem optionList valueToText i = none ↔
      ∀ x ∈ optionList, valueToText x ≠ some i := by
    intro i
    simp [optionItem]
  cases hfind : items.findSome? (optionItem optionList valueToText) with
  | none => exact .inr ⟨fun i hi => (hnone i).1 (findSome?_eq_none_iff.1 hfind i hi), rfl⟩
  | some o =>
    obtain ⟨before, item, after, heq, hitem, hbefore⟩ := findSome?_eq_some_iff.1 hfind
    have htext : valueToText o = some item := by simpa using find?_some hitem
    exact .inl ⟨before, item, after, heq, fun i hi => (hnone i).1 (hbefore i hi),
      mem_of_find?_eq_some hitem, htext⟩

theorem tokens_length_le {s i : List UInt8} (hi : i ∈ tokens s) : i.length ≤ s.length := by
  have hsub := (sublist_flatten_of_mem (mem_map_of_mem (f := (· ++ [44])) hi)).length_le
  rw [← flatMap_def] at hsub
  rcases (tokens_spec s).2 with h | h <;> rw [h] at hsub <;> simp at hsub <;> omega

/-- A key block is a write-once map of the first values that fit, its flags say which calls it
dropped, and the scan of a stored value stays in the scratch buffer and picks the first item on
offer. -/
theorem key_block_write_once (calls : List Call) :
    (∀ k w, (setAll calls).keyVal k = some w ↔ Met (Stores k w) calls) ∧
    Packed (setAll calls) ∧
    ((setAll calls).dupSet = true ↔ Met Repeated calls) ∧
    ((setAll calls).strTooLong = true ↔ Met TooLong calls) ∧
    ((setAll calls).tooMuchData = true ↔ Met Unfit calls) ∧
    ∀ (c : IscsiAcl) (k : KeyType) (optionList : List Int)
      (valueToText : Int → Option (List UInt8)),
      let r := aclChkKey { c with recvKeyBlock := setAll calls } k optionList valueToText
      (∀ p ∈ r.2.2, p.2 < authStrMaxLen) ∧
      (((setAll calls).keyVal k = none ∧ r.2.1 = authOptionNotPresent) ∨
        ∃ s items, (setAll calls).keyVal k = some s ∧ (∀ i ∈ items, (44 : UInt8) ∉ i) ∧
          (items.flatMap (· ++ [44]) = s ∨ items.flatMap (· ++ [44]) = s ++ [44]) ∧
          Picks optionList valueToText items r.2.1) := by
  obtain ⟨hdup, hlong, hmuch⟩ := setAll_flags calls
  refine ⟨setAll_keyVal calls, setAll_packed calls, hdup, hlong, hmuch, ?_⟩
  intro c k optionList valueToText
  unfold aclChkKey aclGetKeyVal
  cases hval : (setAll calls).keyVal k with
  | none => exact ⟨fun p hp => absurd hp not_mem_nil, .inl ⟨rfl, rfl⟩⟩
  | some s =>
    obtain ⟨hfree, hjoin⟩ := tokens_spec s
    obtain ⟨before, call, after, -, -, -, v, -, hfit, hs⟩ := (setAll_keyVal calls k s).1 hval
    refine ⟨scratchWrites_lt _ fun i hi => ?_, .inr ⟨s, tokens s, rfl, hfree, hjoin, ?_⟩⟩
    · have hle := tokens_length_le hi
      have hlt : (cstr v).length < authStrMaxLen := hfit.1
      rw [hs] at hle
      omega
    · dsimp only
      rw [scanItems_fst]
      exact scan_picks optionList valueToText (tokens s)

end AuthKeyMap
