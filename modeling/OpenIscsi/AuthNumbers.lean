import OpenIscsi.AuthSoundness
import OpenIscsi.Lib.Numerals

/-!
# The numbers of a CHAP exchange

A peer sends the algorithm (`CHAP_A`) and the identifier (`CHAP_I`) as numbers:
a row of decimal digits, or `0x` and a row of hexadecimal digits. The client
leaves the reading to `strtoul` and tests the end pointer. The texts that pass
this test are compared with the numbers of the protocol, for the algorithm and
for the identifier as the initiator uses them.
-/

namespace AuthNumbers

open CString AuthText AuthKeys AuthClient AuthSoundness Numerals List

/-- The text behind a leading `0x` or `0X`. -/
def hexPart : List UInt8 → Option (List UInt8)
  | 48 :: x :: t => if x = 120 ∨ x = 88 then some t else none
  | _ => none

/-- The number a text stands for, as the protocol defines it. -/
def chapNumber (s : List UInt8) : Option Nat :=
  match hexPart s with
  | some t => numeral 16 t
  | none => numeral 10 s

/-- The texts `acl_text_to_number` takes: `0x` alone is zero, and otherwise
whatever `strtoul` reads to the end. -/
def Accepted (s : List UInt8) (v : Nat) : Prop :=
  match hexPart s with
  | some t => t = [] ∧ v = 0 ∨ Reads 16 t v
  | none => Reads 10 s v

variable (D : Digest) {s : List UInt8} {algs : List Int} (env : Env) (c : IscsiAcl)
  {text item : List UInt8} {n : Nat}

theorem hexPart_eq {t : List UInt8} (h : hexPart s = some t) :
    ∃ x, (x = 120 ∨ x = 88) ∧ s = 48 :: x :: t := by
  unfold hexPart at h
  split at h
  · rename_i x u
    split at h
    · rename_i hx
      obtain rfl := Option.some.inj h
      exact ⟨x, hx, rfl⟩
    · exact nomatch h
  · exact nomatch h

theorem aclTextToNumber_hex {x : UInt8} {t : List UInt8} (hx : x = 120 ∨ x = 88)
    (hs : NulFree (48 :: x :: t)) :
    aclTextToNumber (48 :: x :: t) =
      if (strtoul 16 t).2 = [] then some (strtoul 16 t).1 else none := by
  unfold aclTextToNumber
  rw [cstr_of_nulFree _ hs]
  simp only [hx, if_true, ne_eq, reduceCtorEq, not_false_eq_true, true_and]

theorem aclTextToNumber_plain (hs : NulFree s) (h : hexPart s = none) :
    aclTextToNumber s =
      if s ≠ [] ∧ (strtoul 10 s).2 = [] then some (strtoul 10 s).1 else none := by
  unfold aclTextToNumber
  rw [cstr_of_nulFree _ hs]
  dsimp only
  split
  · rename_i x t
    have hx : ¬ (x = 120 ∨ x = 88) := by
      intro hx
      have hsome : hexPart (48 :: x :: t) = some t := if_pos hx
      rw [hsome] at h
      exact nomatch h
    rw [if_neg hx]
  · rfl

theorem reads_ne_nil {base : Nat} {v : Nat} (h : Reads base s v) : s ≠ [] := by
  obtain ⟨blanks, sign, pre, body, n, rfl, _, _, _, hnum, _⟩ := h
  obtain ⟨hne, _, _⟩ := numeral_eq_some.1 hnum
  intro hnil
  simp only [append_eq_nil_iff] at hnil
  exact hne hnil.2.2.2

/-- The accepted texts and their values. -/
theorem aclTextToNumber_iff (hs : NulFree s) (v : Nat) :
    aclTextToNumber s = some v ↔ Accepted s v := by
  unfold Accepted
  cases hpart : hexPart s with
  | none =>
    rw [aclTextToNumber_plain hs hpart]
    constructor
    · intro h
      split at h
      · rename_i hend
        rw [← strtoul_eq_iff_reads (Or.inl rfl) hs hend.1 v]
        exact Prod.ext (Option.some.inj h) hend.2
      · exact nomatch h
    · intro h
      have hne := reads_ne_nil h
      rw [← strtoul_eq_iff_reads (Or.inl rfl) hs hne v] at h
      rw [h, if_pos ⟨hne, rfl⟩]
  | some t =>
    obtain ⟨x, hx, rfl⟩ := hexPart_eq hpart
    have ht : NulFree t := fun b hb => hs b (by simp [hb])
    rw [aclTextToNumber_hex hx hs]
    by_cases hne : t = []
    · subst hne
      constructor
      · intro h
        exact Or.inl ⟨rfl, (Option.some.inj h).symm⟩
      · rintro (⟨_, rfl⟩ | h)
        · rfl
        · exact absurd rfl (reads_ne_nil h)
    · constructor
      · intro h
        split at h
        · rename_i hend
          right
          rw [← strtoul_eq_iff_reads (Or.inr rfl) ht hne v]
          exact Prod.ext (Option.some.inj h) hend
        · exact nomatch h
      · rintro (⟨h, _⟩ | h)
        · exact absurd h hne
        · rw [← strtoul_eq_iff_reads (Or.inr rfl) ht hne v] at h
          rw [h, if_pos rfl]

/-- Every number of the protocol that fits an `unsigned long` is accepted as itself. -/
theorem accepted_chapNumber (h : chapNumber s = some n)
    (hn : n < ulongBound) : Accepted s n := by
  unfold chapNumber at h
  unfold Accepted
  cases hpart : hexPart s with
  | none =>
    rw [hpart] at h
    exact reads_numeral h hn
  | some t =>
    rw [hpart] at h
    exact Or.inr (reads_numeral h hn)

/-- A text has at most one accepted value. -/
theorem accepted_unique (hs : NulFree s) {v w : Nat} (hv : Accepted s v)
    (hw : Accepted s w) : v = w := by
  rw [← aclTextToNumber_iff hs] at hv hw
  exact Option.some.inj (hv.symm.trans hw)

/-! ## The identifier -/

def definedIdentifier (text : List UInt8) : Option UInt8 :=
  (chapNumber text).bind (fun n => if n ≤ 255 then some (UInt8.ofNat n) else none)

/-- The identifier the client goes on with. -/
def usedIdentifier (text : List UInt8) : Option UInt8 :=
  (aclTextToNumber text).bind (fun n => if n ≤ 255 then some (UInt8.ofNat n) else none)

/-- The end of the `AUTH_LOCAL_STATE_RECV_CHALLENGE` case of an initiator, for a
given identifier: refused, or answered with it. -/
def answerIdentifier (D : Digest) (env : Env) (c : IscsiAcl) : Option UInt8 → IscsiAcl
  | none => localFail c .chapIdentifierBad
  | some id =>
    match c.recvChapChallenge with
    | none => localFail c .challengeBad
    | some challenge =>
      match aclChapComputeRsp D c false id challenge env.rspInit with
      | .error dbg => localFail c dbg
      | .ok rsp =>
        let text := (aclDataToText (rsp.take c.chapChallengeLen) authStrMaxLen).2
        let c := { c with scratchKeyValue := text }
        let c := c.setSend .chapRsp (some text)
        let c := c.setSend .chapUsername (some c.username)
        { c with localState := .done }

def challengeRead (c : IscsiAcl) : IscsiAcl :=
  { c with recvKeyBlock :=
      (c.recvKeyBlock.markProcessed .chapIdentifier).markProcessed .chapChallenge }

theorem localRecvChallenge_initiator (hn : c.nodeType = .initiator) {chal : List UInt8}
    (hi : c.recvKeyBlock.keyVal .chapIdentifier = some text)
    (hc : c.recvKeyBlock.keyVal .chapChallenge = some chal) :
    localRecvChallenge D env c =
      answerIdentifier D env (challengeRead c) (usedIdentifier text) := by
  have htarget : ¬ c.nodeType = .target := by
    rw [hn]
    exact nofun
  unfold localRecvChallenge aclGetKeyVal usedIdentifier
  simp only [markProcessed_keyVal, hi, hc, htarget, false_and, if_false]
  cases aclTextToNumber text with
  | none => rfl
  | some number =>
    by_cases h : number ≤ 255
    · have hused : (some number).bind (fun n => if n ≤ 255 then some (UInt8.ofNat n) else none) =
          some (UInt8.ofNat number) := if_pos h
      rw [hused]
      dsimp only
      rw [if_neg (by omega)]
      rfl
    · have hused : (some number).bind (fun n => if n ≤ 255 then some (UInt8.ofNat n) else none) =
          none := if_neg h
      rw [hused]
      dsimp only
      rw [if_pos (by omega)]
      rfl

/-- An accepted identifier never ends in the complaint about a bad one. -/
theorem answerIdentifier_ne (id : UInt8) :
    answerIdentifier D env c (some id) ≠ answerIdentifier D env c none := by
  intro h
  have hstate := congrArg IscsiAcl.localState h
  have hdbg := congrArg IscsiAcl.dbgStatus h
  unfold answerIdentifier at hstate hdbg
  dsimp only at hstate hdbg
  split at hdbg
  · exact nomatch hdbg
  · split at hdbg
    · rename_i dbg herr
      unfold aclChapComputeRsp at herr
      split at herr
      · injection herr with herr
        subst herr
        exact nomatch hdbg
      · split at herr
        · split at herr
          · injection herr with herr
            subst herr
            exact nomatch hdbg
          · split at herr
            · injection herr with herr
              subst herr
              exact nomatch hdbg
            · exact nomatch herr
        · injection herr with herr
          subst herr
          exact nomatch hdbg
    · rename_i hchal _ _ hok
      rw [hchal] at hstate
      dsimp only at hstate
      rw [hok] at hstate
      exact nomatch hstate

theorem usedIdentifier_eq_some (ht : NulFree text) {id : UInt8} :
    usedIdentifier text = some id ↔ ∃ v, Accepted text v ∧ v ≤ 255 ∧ UInt8.ofNat v = id := by
  unfold usedIdentifier
  constructor
  · intro h
    obtain ⟨v, hv, hid⟩ := Option.bind_eq_some_iff.1 h
    split at hid
    · rename_i hle
      exact ⟨v, (aclTextToNumber_iff ht v).1 hv, hle, Option.some.inj hid⟩
    · exact nomatch hid
  · rintro ⟨v, hv, hle, rfl⟩
    rw [(aclTextToNumber_iff ht v).2 hv]
    exact if_pos hle

theorem definedIdentifier_eq_some {id : UInt8} :
    definedIdentifier text = some id ↔
      ∃ n, chapNumber text = some n ∧ n ≤ 255 ∧ UInt8.ofNat n = id := by
  unfold definedIdentifier
  constructor
  · intro h
    obtain ⟨n, hn, hid⟩ := Option.bind_eq_some_iff.1 h
    split at hid
    · rename_i hle
      exact ⟨n, hn, hle, Option.some.inj hid⟩
    · exact nomatch hid
  · rintro ⟨n, hn, hle, rfl⟩
    rw [hn]
    exact if_pos hle

/-- A number of the protocol up to 255 is an accepted text. -/
theorem accepted_of_le (h : chapNumber text = some n)
    (hn : n ≤ 255) : Accepted text n := by
  apply accepted_chapNumber h
  unfold ulongBound
  omega

/-- The client treats an identifier as the protocol does, unless `strtoul` makes
a number in range of a text that is none. -/
theorem identifier_iff
    (ht : NulFree text) :
    answerIdentifier D env c (usedIdentifier text) =
        answerIdentifier D env c (definedIdentifier text) ↔
      ∀ v, Accepted text v → v ≤ 255 → chapNumber text = some v := by
  constructor
  · intro h v hv hle
    have hused := (usedIdentifier_eq_some ht).2 ⟨v, hv, hle, rfl⟩
    rw [hused] at h
    cases hd : definedIdentifier text with
    | none =>
      rw [hd] at h
      exact absurd h (answerIdentifier_ne D env c _)
    | some id =>
      obtain ⟨n, hn, hnle, _⟩ := definedIdentifier_eq_some.1 hd
      rw [hn, accepted_unique ht hv (accepted_of_le hn hnle)]
  · intro h
    cases hu : usedIdentifier text with
    | some id =>
      obtain ⟨v, hv, hle, hid⟩ := (usedIdentifier_eq_some ht).1 hu
      rw [definedIdentifier_eq_some.2 ⟨v, h v hv hle, hle, hid⟩]
    | none =>
      cases hd : definedIdentifier text with
      | none => rfl
      | some id =>
        obtain ⟨n, hn, hle, hid⟩ := definedIdentifier_eq_some.1 hd
        have hused := (usedIdentifier_eq_some ht).2 ⟨n, accepted_of_le hn hle, hle, hid⟩
        rw [hu] at hused
        exact nomatch hused

/-! ## The algorithm -/

/-- The value equals an entry of the list, compared as `unsigned long`. -/
def Listed (algs : List Int) (v : Nat) : Prop := ∃ o ∈ algs, o % 2 ^ 64 = (v : Int)

def IntList (algs : List Int) : Prop := ∀ o ∈ algs, -(2 ^ 31) ≤ o ∧ o < 2 ^ 31

/-- The digest a text names by the protocol: a number on the list of this side. -/
def definedAlgorithm (algs : List Int) (text : List UInt8) : Option ChapAlg :=
  (chapNumber text).bind (fun n => if (n : Int) ∈ algs then chapAlgOfCode n else none)

/-- The digest the client goes on with; `acl_local_auth` refuses any other option. -/
def usedAlgorithm (c : IscsiAcl) : Option ChapAlg :=
  chapAlgOfCode (aclChkChapAlgKey c).negotiatedChapAlg

theorem code_bounds (a : ChapAlg) : 5 ≤ a.code ∧ a.code ≤ 8 := by cases a <;> decide

/-- On a list of `int`s a small value is listed only as itself. -/
theorem listed_small (hint : IntList algs) {o : Int} (ho : o ∈ algs) {v : Nat}
    (h : o % 2 ^ 64 = (v : Int)) (hv : v ≤ 8) : o = v := by
  have hrange := hint o ho
  omega

/-- The items of a list are made of its characters. -/
theorem tokensLoop_subset (fuel : Nat) (s : List UInt8) :
    ∀ item ∈ tokensLoop fuel s, ∀ b ∈ item, b ∈ s := by
  induction fuel generalizing s with
  | zero => exact fun item hitem => (nomatch hitem)
  | succ fuel ih =>
    cases s with
    | nil => exact fun item hitem => (nomatch hitem)
    | cons c s =>
      intro item hitem b hb
      rw [tokensLoop] at hitem
      · rcases mem_cons.1 hitem with rfl | hrest
        · exact takeWhile_subset _ hb
        · exact mem_of_mem_drop (ih _ item hrest b hb)
      · exact nofun

/-- A text without a comma is its only item. -/
theorem tokens_single (hne : s ≠ []) (h : ∀ b ∈ s, b ≠ 44) : tokens s = [s] := by
  have htake : s.takeWhile (fun b => b != 44) = s := by
    rw [takeWhile_eq_self_iff]
    intro b hb
    simpa using h b hb
  cases s with
  | nil => exact absurd rfl hne
  | cons c s =>
    have hdrop : (c :: s).drop ((c :: s).length + 1) = [] :=
      drop_eq_nil_of_le (Nat.le_succ _)
    unfold tokens
    rw [length_cons, tokensLoop]
    · rw [htake, hdrop]
      cases s.length <;> rfl
    · exact nofun

/-- No number of the protocol has a comma in it. -/
theorem chapNumber_no_comma (h : chapNumber s = some n) :
    s ≠ [] ∧ ∀ b ∈ s, b ≠ 44 := by
  unfold chapNumber at h
  cases hpart : hexPart s with
  | none =>
    rw [hpart] at h
    obtain ⟨hne, hall, _⟩ := numeral_eq_some.1 h
    exact ⟨hne, fun b hb => (digit_plain (by decide) (hall b hb)).2.2.2.1⟩
  | some t =>
    rw [hpart] at h
    obtain ⟨_, hall, _⟩ := numeral_eq_some.1 h
    obtain ⟨x, hx, rfl⟩ := hexPart_eq hpart
    refine ⟨cons_ne_nil _ _, ?_⟩
    intro b hb
    simp only [mem_cons] at hb
    rcases hb with rfl | rfl | hb
    · decide
    · rcases hx with rfl | rfl <;> decide
    · exact (digit_plain (by decide) (hall b hb)).2.2.2.1

/-- An item is taken when its accepted value is on the list. -/
theorem chapAlgItem_eq_some (hi : NulFree item) {o : Int}
    (h : chapAlgItem algs item = some o) :
    ∃ v : Nat, Accepted item v ∧ o ∈ algs ∧ o % 2 ^ 64 = (v : Int) := by
  unfold chapAlgItem at h
  split at h
  · exact nomatch h
  · rename_i v hv
    have heq := find?_some h
    exact ⟨v, (aclTextToNumber_iff hi v).1 hv, mem_of_find?_eq_some h, by simpa using heq⟩

theorem chapAlgItem_eq_none (hi : NulFree item) :
    chapAlgItem algs item = none ↔ ∀ v, Accepted item v → ¬ Listed algs v := by
  unfold chapAlgItem
  constructor
  · rintro h v hv ⟨o, ho, hov⟩
    rw [(aclTextToNumber_iff hi v).2 hv] at h
    have hnone := find?_eq_none.1 h o ho
    exact hnone (by simpa using hov)
  · intro h
    split
    · rfl
    · rename_i v hv
      rw [find?_eq_none]
      intro o ho hov
      exact h v ((aclTextToNumber_iff hi v).1 hv) ⟨o, ho, by simpa using hov⟩

theorem negotiatedChapAlg_eq {c : IscsiAcl} (hv : c.recvKeyBlock.keyVal .chapAlg = some text) :
    (aclChkChapAlgKey c).negotiatedChapAlg =
      ((tokens text).findSome? (chapAlgItem c.chapAlgList)).getD authOptionReject := by
  unfold aclChkChapAlgKey aclGetKeyVal
  simp only [hv]
  have hscan := scanItems_fst (chapAlgItem c.chapAlgList) (tokens text) c.scratchKeyValue
  rw [← hscan]
  cases (scanItems (chapAlgItem c.chapAlgList) (tokens text) c.scratchKeyValue).1 <;> rfl

def FirstListed (algs : List Int) (text item : List UInt8) (v : Nat) : Prop :=
  ∃ before after, tokens text = before ++ item :: after ∧
    (∀ i ∈ before, ∀ w, Accepted i w → ¬ Listed algs w) ∧ Accepted item v ∧ Listed algs v

theorem keyVal_nulFree {b : KeyBlock} {k : KeyType} (h : b.keyVal k = some text) :
    NulFree text := by
  unfold KeyBlock.keyVal at h
  split at h
  · obtain rfl := Option.some.inj h
    exact cstr_nulFree _
  · exact nomatch h

theorem tokens_nulFree (ht : NulFree text) (h : item ∈ tokens text) :
    NulFree item :=
  fun b hb => ht b (tokensLoop_subset _ _ item h b hb)

theorem usedAlgorithm_eq_some {c : IscsiAcl} (hint : IntList c.chapAlgList)
    (hv : c.recvKeyBlock.keyVal .chapAlg = some text) {a : ChapAlg} :
    usedAlgorithm c = some a ↔
      ∃ item v, FirstListed c.chapAlgList text item v ∧ chapAlgOfCode v = some a := by
  have ht := keyVal_nulFree hv
  unfold usedAlgorithm
  rw [negotiatedChapAlg_eq hv]
  constructor
  · intro h
    cases hfind : (tokens text).findSome? (chapAlgItem c.chapAlgList) with
    | none =>
      rw [hfind] at h
      exact nomatch h
    | some o =>
      rw [hfind] at h
      obtain ⟨before, item, after, htok, hitem, hbefore⟩ := findSome?_eq_some_iff.1 hfind
      have hfree : ∀ i ∈ before ++ item :: after, NulFree i := by
        rw [← htok]
        exact fun i hi => tokens_nulFree ht hi
      obtain ⟨v, hacc, ho, hov⟩ := chapAlgItem_eq_some (hfree item (by simp)) hitem
      have hcode : o = a.code := chapAlg_code o a h
      have hbound := code_bounds a
      have hvo : (v : Int) = o := by omega
      refine ⟨item, v, ⟨before, after, htok, ?_, hacc, o, ho, hov⟩, ?_⟩
      · intro i hi
        exact (chapAlgItem_eq_none (hfree i (by simp [hi]))).1 (hbefore i hi)
      · rw [hvo]
        exact h
  · rintro ⟨item, v, ⟨before, after, htok, hbefore, hacc, hlisted⟩, hcode⟩
    have hfree : ∀ i ∈ before ++ item :: after, NulFree i := by
      rw [← htok]
      exact fun i hi => tokens_nulFree ht hi
    have hnone : ∀ i ∈ before, chapAlgItem c.chapAlgList i = none := by
      intro i hi
      exact (chapAlgItem_eq_none (hfree i (by simp [hi]))).2 (hbefore i hi)
    have hitemFree := hfree item (by simp)
    cases hitem : chapAlgItem c.chapAlgList item with
    | none => exact absurd hlisted ((chapAlgItem_eq_none hitemFree).1 hitem v hacc)
    | some o =>
      obtain ⟨w, hw, ho, how⟩ := chapAlgItem_eq_some hitemFree hitem
      obtain rfl := accepted_unique hitemFree hacc hw
      have hval : (v : Int) = a.code := chapAlg_code v a hcode
      have hbound := code_bounds a
      have hov := listed_small hint ho how (by omega)
      have hfind : (tokens text).findSome? (chapAlgItem c.chapAlgList) = some o :=
        findSome?_eq_some_iff.2 ⟨before, item, after, htok, hitem, hnone⟩
      rw [hfind, Option.getD_some, hov]
      exact hcode

theorem definedAlgorithm_eq_some {a : ChapAlg} :
    definedAlgorithm algs text = some a ↔
      ∃ n : Nat, chapNumber text = some n ∧ (n : Int) ∈ algs ∧ chapAlgOfCode n = some a := by
  unfold definedAlgorithm
  constructor
  · intro h
    obtain ⟨n, hn, ha⟩ := Option.bind_eq_some_iff.1 h
    split at ha
    · rename_i hmem
      exact ⟨n, hn, hmem, ha⟩
    · exact nomatch ha
  · rintro ⟨n, hn, hmem, ha⟩
    rw [hn]
    exact (if_pos hmem).trans ha

/-- A number of the protocol on the list is the only item of its text. -/
theorem firstListed_chapNumber
    (hn : chapNumber text = some n) (hmem : (n : Int) ∈ algs) (hsmall : n ≤ 8) :
    FirstListed algs text text n := by
  obtain ⟨hne, hcomma⟩ := chapNumber_no_comma hn
  refine ⟨[], [], tokens_single hne hcomma, fun i hi => (nomatch hi), ?_, n, hmem, ?_⟩
  · apply accepted_chapNumber hn
    unfold ulongBound
    omega
  · omega

/-- The client treats an algorithm as the protocol does, unless the first listed
item of the text is not the whole text or is no number of the protocol. -/
theorem algorithm_iff (hint : IntList c.chapAlgList)
    (hv : c.recvKeyBlock.keyVal .chapAlg = some text) :
    usedAlgorithm c = definedAlgorithm c.chapAlgList text ↔
      ∀ item v, FirstListed c.chapAlgList text item v → (chapAlgOfCode v).isSome = true →
        item = text ∧ chapNumber text = some v := by
  constructor
  · intro h item v hfirst hsome
    obtain ⟨a, ha⟩ := Option.isSome_iff_exists.1 hsome
    have hused := (usedAlgorithm_eq_some hint hv).2 ⟨item, v, hfirst, ha⟩
    rw [h] at hused
    obtain ⟨n, hn, _, hna⟩ := definedAlgorithm_eq_some.1 hused
    have hvn : (v : Int) = n := (chapAlg_code v a ha).trans (chapAlg_code n a hna).symm
    obtain ⟨hne, hcomma⟩ := chapNumber_no_comma hn
    obtain ⟨before, after, htok, _, _, _⟩ := hfirst
    rw [tokens_single hne hcomma] at htok
    have hitem : item = text := by
      cases before with
      | nil => exact (List.cons.inj htok).1.symm
      | cons i before => simp at htok
    exact ⟨hitem, by rw [hn, Int.ofNat_inj.1 hvn]⟩
  · intro h
    cases hu : usedAlgorithm c with
    | some a =>
      obtain ⟨item, v, hfirst, ha⟩ := (usedAlgorithm_eq_some hint hv).1 hu
      obtain ⟨_, hn⟩ := h item v hfirst (by rw [ha]; rfl)
      obtain ⟨_, _, _, _, _, o, ho, hov⟩ := hfirst
      have hval : (v : Int) = a.code := chapAlg_code v a ha
      have hbound := code_bounds a
      have hov' := listed_small hint ho hov (by omega)
      exact (definedAlgorithm_eq_some.2 ⟨v, hn, hov' ▸ ho, ha⟩).symm
    | none =>
      cases hd : definedAlgorithm c.chapAlgList text with
      | none => rfl
      | some a =>
        obtain ⟨n, hn, hmem, ha⟩ := definedAlgorithm_eq_some.1 hd
        have hval : (n : Int) = a.code := chapAlg_code n a ha
        have hbound := code_bounds a
        have hfirst := firstListed_chapNumber hn hmem (by omega)
        have hused := (usedAlgorithm_eq_some hint hv).2 ⟨text, n, hfirst, ha⟩
        rw [hu] at hused
        exact nomatch hused

/-- An initiator reads the two numbers as the protocol defines them exactly when
neither text is one that only `strtoul` takes for a number in range. -/
theorem numbers_as_defined_iff (D : Digest) (env : Env) (c : IscsiAcl)
    (hn : c.nodeType = .initiator) (hint : IntList c.chapAlgList) (text : List UInt8) :
    (c.recvKeyBlock.keyVal .chapAlg = some text →
      (usedAlgorithm c = definedAlgorithm c.chapAlgList text ↔
        ∀ item v, FirstListed c.chapAlgList text item v → (chapAlgOfCode v).isSome = true →
          item = text ∧ chapNumber text = some v)) ∧
    (c.recvKeyBlock.keyVal .chapIdentifier = some text →
      (c.recvKeyBlock.keyVal .chapChallenge).isSome = true →
      (localRecvChallenge D env c =
          answerIdentifier D env (challengeRead c) (definedIdentifier text) ↔
        ∀ v, Accepted text v → v ≤ 255 → chapNumber text = some v)) := by
  constructor
  · exact algorithm_iff c hint
  · intro hident hsome
    obtain ⟨chal, hchal⟩ := Option.isSome_iff_exists.1 hsome
    rw [localRecvChallenge_initiator D env c hn hident hchal]
    exact identifier_iff D env (challengeRead c) (keyVal_nulFree hident)

def zeroDigest : Digest where
  hash a _ := List.replicate a.rspLen 0
  hash_length _ _ := List.length_replicate

def challenged (ident : List UInt8) : IscsiAcl where
  chapAlgList := [authChapAlgMd5]
  negotiatedChapAlg := authChapAlgMd5
  chapChallengeLen := 16
  passwdPresent := true
  passwdData := List.replicate 12 1
  recvChapChallenge := some [0]
  localState := .recvChallenge
  recvKeyBlock :=
    aclSetKeyValue (aclSetKeyValue aclInitKeyBlk .chapIdentifier (some ident)) .chapChallenge
      (some (ascii "0x00"))

/-- The plain identifier 7 is answered as the protocol has it. -/
theorem plain_identifier_as_defined :
    localRecvChallenge zeroDigest ⟨true, true, true, none, none⟩ (challenged [55]) =
      answerIdentifier zeroDigest ⟨true, true, true, none, none⟩
        (challengeRead (challenged [55])) (definedIdentifier [55]) := by
  apply ((numbers_as_defined_iff zeroDigest ⟨true, true, true, none, none⟩ (challenged [55])
    rfl (by unfold IntList; decide) [55]).2 (by decide) (by decide)).2
  intro v hv _
  have hfree : NulFree [55] := by decide +kernel
  have hseven : aclTextToNumber [55] = some 7 := by decide
  have hdefined : chapNumber [55] = some 7 := by decide +kernel
  have hsame := (aclTextToNumber_iff hfree v).2 hv
  rw [hdefined, ← hseven, hsame]

/-- The text `0x` names no number, yet it is answered as identifier 0; so is
` 7` as 7 and `-18446744073709551611` as algorithm 5. -/
theorem bare_prefix_answered :
    chapNumber (ascii "0x") = none ∧
    (localRecvChallenge zeroDigest ⟨true, true, true, none, none⟩
      (challenged (ascii "0x"))).localState = .done ∧
    localRecvChallenge zeroDigest ⟨true, true, true, none, none⟩ (challenged (ascii "0x")) ≠
      answerIdentifier zeroDigest ⟨true, true, true, none, none⟩
        (challengeRead (challenged (ascii "0x"))) (definedIdentifier (ascii "0x")) ∧
    usedIdentifier (ascii " 7") = some 7 ∧ definedIdentifier (ascii " 7") = none ∧
    chapAlgItem [5] (ascii "-18446744073709551611") = some 5 ∧
    definedAlgorithm [5] (ascii "-18446744073709551611") = none := by
  refine ⟨by decide, by decide, ?_, by decide, by decide, by decide, by decide⟩
  intro h
  have hstate := congrArg IscsiAcl.localState h
  exact absurd hstate (by decide)

end AuthNumbers
