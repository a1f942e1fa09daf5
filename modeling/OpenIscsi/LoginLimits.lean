import OpenIscsi.LoginStages
import OpenIscsi.LoginText
import OpenIscsi.Lib.RecordFile

/-!
# The limits a login ends with

`iscsi_copy_operational_params` turns the values of the node record into the
offer. The keys of the operational stage then overwrite the limits of the
session: `MaxRecvDataSegmentLength` is compared with what is in force, all other
answers are taken as they come. The run keeps the list of answers, so that the
limits can be told from the offer and the last answers.
-/

namespace LoginLimits

open CString AuthClient AuthSoundness LoginKeys Login LoginFrame LoginStages LoginText List

/-! ## The offer -/

/-- The values of the node record behind the limits, as 32 bit words. -/
structure OperationalConf where
  maxRecvDataSegmentLength : Nat
  maxXmitDataSegmentLength : Nat
  maxOutstandingR2T : Nat
  immediateData : Bool
  initialR2T : Bool
  firstBurstLength : Nat
  maxBurstLength : Nat

/-- `create_conn` of the transport templates that have one. -/
inductive Template where
  | plain | be2iscsi | cxgbi
  deriving DecidableEq, Repr

def align32Down (n : Nat) : Nat := n / 4 * 4

/-- A length outside its range is replaced by a default. -/
def inRange (value deflt : Nat) : Nat := if value < 512 ∨ 16777215 < value then deflt else value

def defIniMaxRecvSegLen : Nat := 262144
def defIniFirstBurstLen : Nat := 262144
def defIniMaxBurstLen : Nat := 16776192

def xmitLength (conf : OperationalConf) : Nat :=
  if align32Down conf.maxXmitDataSegmentLength = 0 then defMaxRecvSegLen
  else align32Down conf.maxXmitDataSegmentLength

def Template.createConn (s : LoginSession) : Template → LoginSession
  | .plain => s
  | .be2iscsi =>
    { s with
      maxRecvDlength := min s.maxRecvDlength 65536
      firstBurst := min s.firstBurst 8192
      maxBurst := min s.maxBurst 262144
      maxXmitDlength := min s.maxXmitDlength 65536
      initialR2tEn := true }
  | .cxgbi => { s with maxRecvDlength := min s.maxRecvDlength 8192 }

/-- `iscsi_copy_operational_params`, as far as the limits go. The record is
corrected together with the session where a value is out of range. -/
def iscsiCopyOperationalParams (s : LoginSession) (conf : OperationalConf) (t : Template) :
    LoginSession :=
  let maxBurst := inRange (align32Down conf.maxBurstLength) defIniMaxBurstLen
  let firstBurst := inRange (align32Down conf.firstBurstLength) defIniFirstBurstLen
  t.createConn { s with
    maxRecvDlength := inRange (align32Down conf.maxRecvDataSegmentLength) defIniMaxRecvSegLen
    confMaxXmitDataSegmentLength :=
      if inRange (xmitLength conf) 0 = 0 then defIniMaxRecvSegLen else conf.maxXmitDataSegmentLength
    maxXmitDlength := inRange (xmitLength conf) defIniMaxRecvSegLen
    initialR2tEn := conf.initialR2T
    maxR2t := conf.maxOutstandingR2T
    immDataEn := conf.immediateData
    maxBurst := maxBurst
    firstBurst := if maxBurst < firstBurst then maxBurst else firstBurst }

/-- The part of a session the negotiation of limits reads and writes. -/
structure Limits where
  type : SessionType
  rdma : Bool
  confMaxXmit : Nat
  maxXmit : Nat
  firstBurst : Nat
  maxBurst : Nat
  maxR2t : Nat
  immData : Bool

def limits (s : LoginSession) : Limits :=
  ⟨s.type, s.rdma, s.confMaxXmitDataSegmentLength, s.maxXmitDlength, s.firstBurst, s.maxBurst,
    s.maxR2t, s.immDataEn⟩

variable {offer : LoginSession} (env : RspEnv) (s : LoginSession) (conf : OperationalConf)
  (t : Template)

theorem firstBurst_le_maxBurst :
    (iscsiCopyOperationalParams s conf t).firstBurst ≤ (iscsiCopyOperationalParams s conf t).maxBurst := by
  have hplain : ∀ a b : Nat, (if a < b then a else b) ≤ a := by
    intro a b
    split <;> omega
  cases t with
  | plain => exact hplain _ _
  | be2iscsi =>
    have h := hplain (inRange (align32Down conf.maxBurstLength) defIniMaxBurstLen)
      (inRange (align32Down conf.firstBurstLength) defIniFirstBurstLen)
    simp only [iscsiCopyOperationalParams, Template.createConn]
    omega
  | cxgbi => exact hplain _ _

/-- A configured length in range is an upper bound from the start. -/
theorem maxXmit_le_conf
    (hlow : 512 ≤ conf.maxXmitDataSegmentLength)
    (hhigh : conf.maxXmitDataSegmentLength ≤ 16777215) :
    (iscsiCopyOperationalParams s conf t).confMaxXmitDataSegmentLength =
        conf.maxXmitDataSegmentLength ∧
      (iscsiCopyOperationalParams s conf t).maxXmitDlength ≤ conf.maxXmitDataSegmentLength := by
  have halign : align32Down conf.maxXmitDataSegmentLength ≠ 0 := by
    unfold align32Down
    omega
  have hx : xmitLength conf = align32Down conf.maxXmitDataSegmentLength := if_neg halign
  have hrange : ∀ d, inRange (xmitLength conf) d = align32Down conf.maxXmitDataSegmentLength := by
    intro d
    rw [hx]
    unfold inRange align32Down
    rw [if_neg (by omega)]
  have hle : align32Down conf.maxXmitDataSegmentLength ≤ conf.maxXmitDataSegmentLength := by
    unfold align32Down
    omega
  cases t with
  | plain | be2iscsi | cxgbi =>
    simp only [iscsiCopyOperationalParams, Template.createConn, hrange]
    rw [if_neg halign]
    exact ⟨rfl, by omega⟩

/-! ## What does not touch the limits -/

theorem iscsiLoginBegin_limits (usable : Int → Bool) (s : LoginSession) :
    limits (iscsiLoginBegin usable s).1 = limits s := by
  unfold iscsiLoginBegin
  dsimp only
  split <;> rfl

theorem stageRequest_limits (maxDataLength : Nat) (s : LoginSession) (text : List UInt8) :
    limits (stageRequest maxDataLength s text).1 = limits s := by
  unfold stageRequest
  split
  · rfl
  · split
    · split
      · rfl
      · unfold fillSecurityParamsText
        dsimp only
        split <;> rfl
    · rfl

theorem iscsiMakeLoginPdu_limits (maxDataLength : Nat) (s : LoginSession) :
    limits (iscsiMakeLoginPdu maxDataLength s).1 = limits s := by
  have hfirst : limits (firstRequest maxDataLength s).1 = limits s := by
    unfold firstRequest
    split
    · rfl
    · dsimp only
      split <;> rfl
  unfold iscsiMakeLoginPdu
  split
  · dsimp only
    split
    · exact hfirst
    · exact (stageRequest_limits maxDataLength _ _).trans hfirst
  · exact stageRequest_limits maxDataLength s []

theorem rspBegin_limits (r : LoginRsp) :
    limits (rspBegin s r).1 = limits s := by
  unfold rspBegin
  split
  · split
    · rfl
    · dsimp only
      split <;> rfl
  · rfl

theorem rspVerdict_limits (D : Digest) (env : RspEnv) (s : LoginSession) :
    limits (rspVerdict D env s).session = limits s := by
  unfold rspVerdict
  split
  · split
    · rfl
    · unfold checkSecurityStageStatus
      dsimp only
      split <;> rfl
  · rfl

theorem rspRecord_limits (r : LoginRsp) : limits (rspRecord s r) = limits s := by
  unfold rspRecord
  dsimp only
  split <;> rfl

variable {s' : LoginSession}

theorem iscsiUpdateAddress_limits {env : RspEnv} {s : LoginSession} {value : List UInt8}
    (h : iscsiUpdateAddress env s value = some s') : limits s' = limits s := by
  unfold iscsiUpdateAddress at h
  dsimp only at h
  split at h
  · cases h
  · split at h
    · cases h
      rfl
    · cases h

/-- The keys of the security stage. -/
theorem getSecurityTextKeys_limits (client : IscsiAcl)
    (text : List UInt8) : limits (getSecurityTextKeys env s client text).1 = limits s := by
  unfold getSecurityTextKeys
  split
  · rfl
  · split
    · split
      · rename_i s' hs
        exact iscsiUpdateAddress_limits hs
      · rfl
    · split
      · rfl
      · unfold getAuthKeyType
        split
        · rfl
        · dsimp only
          split <;> rfl

theorem scanText_limits (fuel : Nat) (s : LoginSession) (text : List UInt8)
    (hstage : s.currentStage ≠ opParmsNegotiationStage) :
    limits (scanText env fuel s text).1 = limits s := by
  have hkeep := scanText_invariant env
    (fun t => stage t = stage s ∧ limits t = limits s) (fun t u ht => by
      refine ⟨(stageKeys_stage env t u).trans ht.1, ?_⟩
      have htstage : t.currentStage = s.currentStage := congrArg LoginFrame.Stage.currentStage ht.1
      unfold stageKeys
      split
      · split
        · exact ht.2
        · exact (getSecurityTextKeys_limits env t _ u).trans ht.2
      · rw [if_neg (by rw [htstage]; exact hstage)]
        exact ht.2) fuel s text ⟨rfl, rfl⟩
  exact hkeep.2

/-! ## The answers of the operational stage -/

/-- The number an answer stands for, in the width of the session's fields. -/
def number (value : List UInt8) : Nat := word (strtoul 0 value).1

def limitKeys : List OpKey :=
  [.immediateData, .maxRecvDataSegmentLength, .firstBurstLength, .maxBurstLength,
    .maxOutstandingR2T]

def lastAnswer (k : OpKey) (answers : List (OpKey × List UInt8)) : Option (List UInt8) :=
  answers.foldl (fun last p => if p.1 = k then some p.2 else last) none

theorem lastAnswer_snoc (k k' : OpKey) (answers : List (OpKey × List UInt8)) (value : List UInt8) :
    lastAnswer k (answers ++ [(k', value)]) =
      if k' = k then some value else lastAnswer k answers := by
  simp only [lastAnswer, foldl_append, foldl_cons, foldl_nil]

/-- The limits in force, told from the offer and the answers so far. -/
structure Tells (offer : LoginSession) (answers : List (OpKey × List UInt8)) (s : LoginSession) :
    Prop where
  type : s.type = offer.type
  rdma : s.rdma = offer.rdma
  confMaxXmit : s.confMaxXmitDataSegmentLength = offer.confMaxXmitDataSegmentLength
  firstBurst : s.firstBurst = ((lastAnswer .firstBurstLength answers).map number).getD offer.firstBurst
  maxBurst : s.maxBurst = ((lastAnswer .maxBurstLength answers).map number).getD offer.maxBurst
  maxR2t : s.maxR2t = ((lastAnswer .maxOutstandingR2T answers).map number).getD offer.maxR2t
  immData : s.immDataEn =
    ((lastAnswer .immediateData answers).map (fun v => v == ascii "Yes")).getD offer.immDataEn
  maxXmit : (∀ p ∈ answers, p.1 = .maxRecvDataSegmentLength → (strtoul 0 p.2).1 < 2 ^ 31) →
    s.maxXmitDlength < 2 ^ 31 ∧
    (offer.confMaxXmitDataSegmentLength ≠ 0 → s.maxXmitDlength ≤ offer.maxXmitDlength) ∧
    ∀ v, lastAnswer .maxRecvDataSegmentLength answers = some v →
      s.maxXmitDlength ≤ (strtoul 0 v).1

theorem normalOnly_normal (k : IrrelevantKey) (set : LoginSession → LoginSession)
    (h : s.type = .normal) : normalOnly s k set = set s := by
  unfold normalOnly
  rw [h]

/-- A key that sets no limit leaves all of them. -/
theorem applyOpKey_limits (s' : LoginSession) (value : List UInt8) (k : OpKey)
    (hk : k ∉ limitKeys) (hrdma : s.rdma = false) (h : applyOpKey env s value k = .ok s') :
    limits s' = limits s := by
  have hother : ∀ (i : IrrelevantKey) (set : LoginSession → LoginSession),
      limits (set s) = limits s → limits (normalOnly s i set) = limits s := by
    intro i set hset
    unfold normalOnly
    split
    · exact hset
    · rfl
  cases k with
  | targetAddress =>
    simp only [applyOpKey] at h
    split at h
    · rename_i s'' hs
      cases h
      exact iscsiUpdateAddress_limits hs
    · cases h
  | immediateData => exact absurd (by decide) hk
  | maxRecvDataSegmentLength => exact absurd (by decide) hk
  | firstBurstLength => exact absurd (by decide) hk
  | maxBurstLength => exact absurd (by decide) hk
  | maxOutstandingR2T => exact absurd (by decide) hk
  | initialR2T => cases h; exact hother _ _ rfl
  | dataPduInOrder => cases h; exact hother _ _ rfl
  | dataSequenceInOrder => cases h; exact hother _ _ rfl
  | maxConnections =>
    simp only [applyOpKey] at h
    split at h
    · cases h
    · cases h
      exact hother _ _ rfl
  | targetRecvDataSegmentLength =>
    simp only [applyOpKey, hrdma] at h
    cases h
    rfl
  | initiatorRecvDataSegmentLength =>
    simp only [applyOpKey, hrdma] at h
    cases h
    rfl
  | _ =>
    simp only [applyOpKey] at h
    first
      | (cases h; rfl)
      | (split at h <;> first | (cases h; rfl) | cases h)

variable {answers : List (OpKey × List UInt8)}

theorem Tells.of_limits {s : LoginSession} (h : Tells offer answers s) (hl : limits s' = limits s) :
    Tells offer answers s' := by
  constructor
  · exact (congrArg Limits.type hl).trans h.type
  · exact (congrArg Limits.rdma hl).trans h.rdma
  · exact (congrArg Limits.confMaxXmit hl).trans h.confMaxXmit
  · exact (congrArg Limits.firstBurst hl).trans h.firstBurst
  · exact (congrArg Limits.maxBurst hl).trans h.maxBurst
  · exact (congrArg Limits.maxR2t hl).trans h.maxR2t
  · exact (congrArg Limits.immData hl).trans h.immData
  · have hx : s'.maxXmitDlength = s.maxXmitDlength := congrArg Limits.maxXmit hl
    rw [hx]
    exact h.maxXmit

/-- A key that sets no limit is no answer to one that does. -/
theorem Tells.other {s : LoginSession} (h : Tells offer answers s) {k : OpKey} {value : List UInt8}
    (hk : k ∉ limitKeys) (hl : limits s' = limits s) :
    Tells offer (answers ++ [(k, value)]) s' := by
  have hlast : ∀ k' ∈ limitKeys, lastAnswer k' (answers ++ [(k, value)]) = lastAnswer k' answers := by
    intro k' hk'
    rw [lastAnswer_snoc, if_neg]
    rintro rfl
    exact hk hk'
  have h' := h.of_limits hl
  refine ⟨h'.type, h'.rdma, h'.confMaxXmit, ?_, ?_, ?_, ?_, fun hsmall => ?_⟩
  all_goals rw [hlast _ (by decide)]
  · exact h'.firstBurst
  · exact h'.maxBurst
  · exact h'.maxR2t
  · exact h'.immData
  · exact h'.maxXmit fun p hp => hsmall p (mem_append_left _ hp)

/-- An answer to one of the four keys that are taken as they come. -/
theorem Tells.taken {s : LoginSession} (h : Tells offer answers s) (value : List UInt8) :
    Tells offer (answers ++ [(.firstBurstLength, value)]) { s with firstBurst := number value } ∧
    Tells offer (answers ++ [(.maxBurstLength, value)]) { s with maxBurst := number value } ∧
    Tells offer (answers ++ [(.maxOutstandingR2T, value)]) { s with maxR2t := number value } ∧
    Tells offer (answers ++ [(.immediateData, value)])
      { s with immDataEn := value == ascii "Yes" } := by
  have hxmit : ∀ k, k ≠ .maxRecvDataSegmentLength →
      (∀ p ∈ answers ++ [(k, value)], p.1 = .maxRecvDataSegmentLength → (strtoul 0 p.2).1 < 2 ^ 31) →
      s.maxXmitDlength < 2 ^ 31 ∧
      (offer.confMaxXmitDataSegmentLength ≠ 0 → s.maxXmitDlength ≤ offer.maxXmitDlength) ∧
      ∀ v, lastAnswer .maxRecvDataSegmentLength (answers ++ [(k, value)]) = some v →
        s.maxXmitDlength ≤ (strtoul 0 v).1 := by
    intro k hk hsmall
    rw [lastAnswer_snoc, if_neg hk]
    exact h.maxXmit (fun p hp => hsmall p (mem_append_left _ hp))
  refine ⟨⟨h.type, h.rdma, h.confMaxXmit, ?_, ?_, ?_, ?_, hxmit _ nofun⟩,
    ⟨h.type, h.rdma, h.confMaxXmit, ?_, ?_, ?_, ?_, hxmit _ nofun⟩,
    ⟨h.type, h.rdma, h.confMaxXmit, ?_, ?_, ?_, ?_, hxmit _ nofun⟩,
    ⟨h.type, h.rdma, h.confMaxXmit, ?_, ?_, ?_, ?_, hxmit _ nofun⟩⟩ <;>
    simp only [lastAnswer_snoc, reduceCtorEq, if_true, if_false, Option.map_some, Option.getD_some,
      h.firstBurst, h.maxBurst, h.maxR2t, h.immData]

theorem toInt32_small {n : Nat} (h : n < 2 ^ 31) : toInt32 n = n :=
  RecordFile.toInt32_nat (Int.natCast_nonneg n) (by omega)

/-- An answer to `MaxRecvDataSegmentLength`, on a transport without RDMA. -/
theorem Tells.maxRecv {s : LoginSession} (h : Tells offer answers s) (env : RspEnv)
    (value : List UInt8) (hrdma : s.rdma = false)
    (hs : applyOpKey env s value .maxRecvDataSegmentLength = .ok s') :
    Tells offer (answers ++ [(.maxRecvDataSegmentLength, value)]) s' := by
  have hcases : (s.confMaxXmitDataSegmentLength = 0 ∨
        toInt32 (strtoul 0 value).1 < toInt32 s.maxXmitDlength) ∧
        s' = { s with maxXmitDlength := word (strtoul 0 value).1 } ∨
      ¬ (s.confMaxXmitDataSegmentLength = 0 ∨
        toInt32 (strtoul 0 value).1 < toInt32 s.maxXmitDlength) ∧ s' = s := by
    unfold applyOpKey at hs
    dsimp only at hs
    rw [if_pos (Or.inr (by rw [hrdma]; rfl))] at hs
    split at hs
    · rename_i hc
      cases hs
      exact Or.inl ⟨hc, rfl⟩
    · rename_i hc
      cases hs
      exact Or.inr ⟨hc, rfl⟩
  have hsame : { limits s' with maxXmit := s.maxXmitDlength } = limits s := by
    rcases hcases with ⟨_, rfl⟩ | ⟨_, rfl⟩ <;> rfl
  have htold : Tells offer answers { s' with maxXmitDlength := s.maxXmitDlength } := h.of_limits hsame
  refine ⟨htold.type, htold.rdma, htold.confMaxXmit, ?_, ?_, ?_, ?_, ?_⟩
  · rw [lastAnswer_snoc, if_neg nofun]
    exact htold.firstBurst
  · rw [lastAnswer_snoc, if_neg nofun]
    exact htold.maxBurst
  · rw [lastAnswer_snoc, if_neg nofun]
    exact htold.maxR2t
  · rw [lastAnswer_snoc, if_neg nofun]
    exact htold.immData
  · intro hsmall
    obtain ⟨hlt, hle, _⟩ := h.maxXmit (fun p hp => hsmall p (mem_append_left _ hp))
    have hvalue : (strtoul 0 value).1 < 2 ^ 31 :=
      hsmall _ (mem_append_right _ mem_cons_self) rfl
    have hword : word (strtoul 0 value).1 = (strtoul 0 value).1 := Nat.mod_eq_of_lt (by omega)
    have hsigned := toInt32_small hvalue
    have hsignedOld := toInt32_small hlt
    rw [lastAnswer_snoc, if_pos rfl]
    rcases hcases with ⟨hc, rfl⟩ | ⟨hc, rfl⟩
    · refine ⟨by dsimp only; omega, ?_, ?_⟩
      · intro hne
        dsimp only
        rcases hc with hc | hc
        · exact absurd (h.confMaxXmit ▸ hc) hne
        · have := hle hne
          omega
      · intro v hv
        obtain rfl := Option.some.inj hv
        exact Nat.le_of_eq hword
    · refine ⟨hlt, hle, ?_⟩
      intro v hv
      obtain rfl := Option.some.inj hv
      rw [not_or] at hc
      omega

/-- One key of the operational stage. -/
theorem Tells.step {s : LoginSession} (h : Tells offer answers s) (env : RspEnv)
    (value : List UInt8) (k : OpKey) (hnormal : offer.type = .normal) (hrdma : offer.rdma = false)
    (hs : applyOpKey env s value k = .ok s') : Tells offer (answers ++ [(k, value)]) s' := by
  have htype : s.type = .normal := h.type.trans hnormal
  have hr : s.rdma = false := h.rdma.trans hrdma
  obtain ⟨hfirst, hburst, hr2t, himm⟩ := h.taken value
  by_cases hk : k ∈ limitKeys
  · simp only [limitKeys, mem_cons, not_mem_nil, or_false] at hk
    rcases hk with rfl | rfl | rfl | rfl | rfl
    · simp only [applyOpKey, normalOnly_normal _ _ _ htype] at hs
      cases hs
      exact himm
    · exact h.maxRecv env value hr hs
    · simp only [applyOpKey, normalOnly_normal _ _ _ htype] at hs
      cases hs
      exact hfirst
    · simp only [applyOpKey, normalOnly_normal _ _ _ htype] at hs
      cases hs
      exact hburst
    · simp only [applyOpKey, normalOnly_normal _ _ _ htype] at hs
      cases hs
      exact hr2t
  · exact h.other hk (applyOpKey_limits env s s' value k hk hr hs)

/-! ## Responses and whole logins -/

/-- A refused key never carries the status of success. -/
theorem applyOpKey_error {env : RspEnv} {s : LoginSession} {value : List UInt8} {k : OpKey}
    {e : LoginStatus} (h : applyOpKey env s value k = .error e) : e ≠ .ok := by
  cases k with
  | maxRecvDataSegmentLength =>
    simp only [applyOpKey] at h
    split at h
    · split at h <;> cases h
    · cases h
  | _ =>
    simp only [applyOpKey] at h
    first
      | cases h
      | (split at h <;> first | (cases h; decide) | cases h)

def answersOf (s : LoginSession) (r : LoginRsp) : List (OpKey × List UInt8) :=
  if s.currentStage = opParmsNegotiationStage then
    (scanPairs OpKey.name opKeys (r.text.length + 1) r.text).getD []
  else []

/-- One round of the key loop in the operational stage. -/
theorem scanText_op (fuel : Nat) (s : LoginSession) (text : List UInt8)
    (hstage : s.currentStage = opParmsNegotiationStage) (b : UInt8) (rest : List UInt8)
    (htext : text.dropWhile (fun b => b == 0) = b :: rest)
    (hok : (scanText env (fuel + 1) s text).2 = .ok) :
    ∃ k value valueEnd s', findKey OpKey.name opKeys (b :: rest) = some (k, value, valueEnd) ∧
      applyOpKey env s value k = .ok s' ∧
      scanText env (fuel + 1) s text = scanText env fuel s' valueEnd := by
  have hkeys : stageKeys env s (b :: rest) = getOpParamsTextKeys env s (b :: rest) := by
    unfold stageKeys
    rw [if_neg (by rw [hstage]; decide), if_pos hstage]
  rw [scanText, htext] at hok ⊢
  dsimp only at hok ⊢
  rw [hkeys] at hok ⊢
  unfold getOpParamsTextKeys at hok ⊢
  unfold findKey
  cases hfind : opKeys.findSome? (fun k =>
      (iscsiFindKeyValue k.name (b :: rest)).map (fun v => (k, v))) with
  | none =>
    rw [hfind] at hok
    exact nomatch hok
  | some found =>
    obtain ⟨k, value, valueEnd⟩ := found
    rw [hfind] at hok
    dsimp only at hok ⊢
    cases happly : applyOpKey env s value k with
    | error e =>
      rw [happly] at hok
      exact absurd hok (applyOpKey_error happly)
    | ok s' => exact ⟨k, value, valueEnd, s', rfl, happly, rfl⟩

/-- The key loop of the operational stage takes the answers one by one. -/
theorem Tells.scanText (hnormal : offer.type = .normal)
    (hrdma : offer.rdma = false) (env : RspEnv) (fuel : Nat) (s : LoginSession) (text : List UInt8)
    (answers : List (OpKey × List UInt8)) (hstage : s.currentStage = opParmsNegotiationStage)
    (h : Tells offer answers s) (hok : (Login.scanText env fuel s text).2 = .ok) :
    ∃ pairs, scanPairs OpKey.name opKeys fuel text = some pairs ∧
      Tells offer (answers ++ pairs) (Login.scanText env fuel s text).1 := by
  induction fuel generalizing s text answers with
  | zero =>
    refine ⟨[], rfl, ?_⟩
    rw [append_nil]
    exact h
  | succ fuel ih =>
    cases htext : text.dropWhile (fun b => b == 0) with
    | nil =>
      refine ⟨[], ?_, ?_⟩
      · rw [scanPairs, htext]
      · rw [Login.scanText, htext, append_nil]
        exact h
    | cons b rest =>
      obtain ⟨k, value, valueEnd, s', hfind, happly, hscan⟩ :=
        scanText_op env fuel s text hstage b rest htext hok
      rw [hscan] at hok ⊢
      have hframe := (applyOpKey_frame env s s' value k happly).1
      have hstage' : s'.currentStage = opParmsNegotiationStage :=
        (congrArg LoginFrame.Stage.currentStage hframe).trans hstage
      obtain ⟨pairs, hpairs, htells⟩ := ih s' valueEnd (answers ++ [(k, value)]) hstage'
        (h.step env value k hnormal hrdma happly) hok
      refine ⟨(k, value) :: pairs, ?_, ?_⟩
      · rw [scanPairs, htext]
        dsimp only
        rw [hfind]
        dsimp only
        rw [hpairs]
        rfl
      · rw [append_assoc] at htells
        exact htells

/-- A response that is accepted adds its answers. -/
theorem Tells.response (hnormal : offer.type = .normal)
    (hrdma : offer.rdma = false) (D : Digest) (env : RspEnv) (maxDataLength : Nat)
    (s : LoginSession) (r : LoginRsp) (answers : List (OpKey × List UInt8))
    (h : Tells offer answers s)
    (hok : (iscsiProcessLoginResponse D env maxDataLength s r).status = .ok) :
    Tells offer (answers ++ answersOf s r)
      (iscsiProcessLoginResponse D env maxDataLength s r).session := by
  have hbegin := h.of_limits (rspBegin_limits s r)
  have hstage : (rspBegin s r).1.currentStage = s.currentStage :=
    congrArg LoginFrame.Stage.currentStage (rspBegin_stage s r)
  obtain ⟨-, hkeys, -, hsession⟩ := process_accepted hok
  rw [hsession]
  refine Tells.of_limits ?_ ((rspRecord_limits _ r).trans (rspVerdict_limits D env _))
  unfold answersOf
  by_cases hop : s.currentStage = opParmsNegotiationStage
  · rw [if_pos hop]
    obtain ⟨pairs, hpairs, htells⟩ := Tells.scanText hnormal hrdma env _ _ r.text answers
      (hstage.trans hop) hbegin hkeys
    rw [hpairs]
    exact htells
  · rw [if_neg hop, append_nil]
    exact hbegin.of_limits (scanText_limits env _ _ r.text (by rw [hstage]; exact hop))

/-- A login with its history: the answers so far, and whether every response
has been accepted. -/
structure Tracked where
  progress : LoginProgress
  answers : List (OpKey × List UInt8) := []
  accepted : Bool := true

def trackedRound (D : Digest) (t : Tracked) (round : Round) : Tracked :=
  let made := iscsiMakeLoginPdu round.maxDataLength t.progress.session
  let progress := loginRound D t.progress round
  if t.progress.finished ∨ made.2.isNone then { t with progress := progress }
  else
    { progress := progress
      answers := t.answers ++ answersOf made.1 round.rsp
      accepted := t.accepted &&
        decide ((iscsiProcessLoginResponse D round.env round.maxDataLength made.1 round.rsp).status =
          .ok) }

def trackedRounds (D : Digest) (usable : Int → Bool) (s : LoginSession) (rounds : List Round) :
    Tracked :=
  Runs.run (trackedRound D) { progress := loginStart usable s } rounds

theorem trackedRound_tells (hnormal : offer.type = .normal)
    (hrdma : offer.rdma = false) (D : Digest) (t : Tracked) (round : Round)
    (h : t.accepted = true → Tells offer t.answers t.progress.session)
    (hacc : (trackedRound D t round).accepted = true) :
    Tells offer (trackedRound D t round).answers (trackedRound D t round).progress.session := by
  unfold trackedRound at hacc ⊢
  dsimp only at hacc ⊢
  have hmade := iscsiMakeLoginPdu_limits round.maxDataLength t.progress.session
  cases hpdu : iscsiMakeLoginPdu round.maxDataLength t.progress.session with
  | mk made req =>
    rw [hpdu] at hacc hmade
    dsimp only at hacc hmade ⊢
    split at hacc
    · rename_i hend
      rw [if_pos hend]
      dsimp only at hacc ⊢
      unfold loginRound
      split
      · exact h hacc
      · rename_i hfin
        rcases hend with hend | hend
        · exact absurd hend hfin
        · rw [hpdu, Option.isNone_iff_eq_none.1 hend]
          exact (h hacc).of_limits hmade
    · rename_i hgo
      rw [if_neg hgo]
      rw [not_or] at hgo
      simp only [Bool.and_eq_true, decide_eq_true_eq] at hacc
      dsimp only
      unfold loginRound
      rw [if_neg hgo.1, hpdu]
      cases req with
      | none => exact absurd rfl hgo.2
      | some req =>
        exact Tells.response hnormal hrdma D round.env round.maxDataLength made round.rsp _
          ((h hacc.1).of_limits hmade) hacc.2

theorem maxXmit_small :
    (iscsiCopyOperationalParams s conf t).maxXmitDlength < 2 ^ 31 := by
  have hrange : inRange (xmitLength conf) defIniMaxRecvSegLen < 2 ^ 31 := by
    unfold inRange
    split
    · decide
    · omega
  cases t with
  | plain => exact hrange
  | be2iscsi => exact Nat.lt_of_le_of_lt (Nat.min_le_left _ _) hrange
  | cxgbi => exact hrange

structure Respects (offer : LoginSession) (answers : List (OpKey × List UInt8)) : Prop where
  firstBurst : ∀ v, lastAnswer .firstBurstLength answers = some v → number v ≤ offer.firstBurst
  maxBurst : ∀ v, lastAnswer .maxBurstLength answers = some v → number v ≤ offer.maxBurst
  ordered : ((lastAnswer .firstBurstLength answers).map number).getD offer.firstBurst ≤
    ((lastAnswer .maxBurstLength answers).map number).getD offer.maxBurst
  maxR2t : ∀ v, lastAnswer .maxOutstandingR2T answers = some v → number v ≤ offer.maxR2t
  immData : lastAnswer .immediateData answers = some (ascii "Yes") → offer.immDataEn = true

/-- Answers that respect the offer leave limits that respect it. -/
theorem Tells.bounded {s : LoginSession} (h : Tells offer answers s) (hr : Respects offer answers) :
    s.firstBurst ≤ offer.firstBurst ∧ s.firstBurst ≤ s.maxBurst ∧ s.maxBurst ≤ offer.maxBurst ∧
      s.maxR2t ≤ offer.maxR2t ∧ (s.immDataEn = true → offer.immDataEn = true) := by
  have hget : ∀ (answer : Option (List UInt8)) (bound : Nat),
      (∀ v, answer = some v → number v ≤ bound) → (answer.map number).getD bound ≤ bound := by
    intro answer bound hb
    cases answer with
    | none => exact Nat.le_refl bound
    | some v => exact hb v rfl
  refine ⟨?_, ?_, ?_, ?_, ?_⟩
  · rw [h.firstBurst]
    exact hget _ _ hr.firstBurst
  · rw [h.firstBurst, h.maxBurst]
    exact hr.ordered
  · rw [h.maxBurst]
    exact hget _ _ hr.maxBurst
  · rw [h.maxR2t]
    exact hget _ _ hr.maxR2t
  · rw [h.immData]
    intro himm
    cases hlast : lastAnswer .immediateData answers with
    | none =>
      rw [hlast] at himm
      exact himm
    | some v =>
      rw [hlast] at himm
      apply hr.immData
      rw [hlast, eq_of_beq himm]

/-- The limits of a login whose responses were all accepted. The transmit length
respects the record and the target's last declaration; the other limits are the
last answers, so they respect the offer when those do. -/
theorem negotiated_limits (D : Digest) (usable : Int → Bool) (s : LoginSession)
    (conf : OperationalConf) (t : Template) (rounds : List Round)
    (hnormal : s.type = .normal) (hrdma : s.rdma = false)
    (hconf : conf.maxXmitDataSegmentLength = 0 ∨ 512 ≤ conf.maxXmitDataSegmentLength ∧
      conf.maxXmitDataSegmentLength ≤ 16777215)
    (hacc : (trackedRounds D usable (iscsiCopyOperationalParams s conf t) rounds).accepted = true)
    (hsmall : ∀ p ∈ (trackedRounds D usable (iscsiCopyOperationalParams s conf t) rounds).answers,
      p.1 = .maxRecvDataSegmentLength → (strtoul 0 p.2).1 < 2 ^ 31) :
    let offer := iscsiCopyOperationalParams s conf t
    let answers := (trackedRounds D usable offer rounds).answers
    let final := (trackedRounds D usable offer rounds).progress.session
    (conf.maxXmitDataSegmentLength ≠ 0 → final.maxXmitDlength ≤ conf.maxXmitDataSegmentLength) ∧
    (∀ v, lastAnswer .maxRecvDataSegmentLength answers = some v →
      final.maxXmitDlength ≤ (strtoul 0 v).1) ∧
    final.firstBurst = ((lastAnswer .firstBurstLength answers).map number).getD offer.firstBurst ∧
    final.maxBurst = ((lastAnswer .maxBurstLength answers).map number).getD offer.maxBurst ∧
    final.maxR2t = ((lastAnswer .maxOutstandingR2T answers).map number).getD offer.maxR2t ∧
    final.immDataEn = ((lastAnswer .immediateData answers).map (fun v => v == ascii "Yes")).getD
      offer.immDataEn ∧
    offer.firstBurst ≤ offer.maxBurst ∧
    (Respects offer answers → final.firstBurst ≤ offer.firstBurst ∧
      final.firstBurst ≤ final.maxBurst ∧ final.maxBurst ≤ offer.maxBurst ∧
      final.maxR2t ≤ offer.maxR2t ∧ (final.immDataEn = true → offer.immDataEn = true)) := by
  have hframe : (iscsiCopyOperationalParams s conf t).type = s.type ∧
      (iscsiCopyOperationalParams s conf t).rdma = s.rdma := by
    cases t <;> exact ⟨rfl, rfl⟩
  have hstart : Tells (iscsiCopyOperationalParams s conf t) []
      (loginStart usable (iscsiCopyOperationalParams s conf t)).session := by
    have hself : Tells (iscsiCopyOperationalParams s conf t) []
        (iscsiCopyOperationalParams s conf t) :=
      ⟨rfl, rfl, rfl, rfl, rfl, rfl, rfl, fun _ => ⟨maxXmit_small s conf t,
        fun _ => Nat.le_refl _, fun v hv => (nomatch hv)⟩⟩
    exact hself.of_limits (iscsiLoginBegin_limits usable _)
  have htells := Runs.run_invariant (trackedRound D)
    (fun t' => t'.accepted = true →
      Tells (iscsiCopyOperationalParams s conf t) t'.answers t'.progress.session)
    (fun t' round h hacc => trackedRound_tells (hframe.1.trans hnormal) (hframe.2.trans hrdma) D t'
      round h hacc)
    { progress := loginStart usable (iscsiCopyOperationalParams s conf t) } (fun _ => hstart) rounds
    hacc
  obtain ⟨_, hxmit, hlast⟩ := htells.maxXmit hsmall
  refine ⟨?_, hlast, htells.firstBurst, htells.maxBurst, htells.maxR2t, htells.immData,
    firstBurst_le_maxBurst s conf t, htells.bounded⟩
  intro hne
  rcases hconf with h0 | ⟨hlow, hhigh⟩
  · exact absurd h0 hne
  · obtain ⟨hc, hle⟩ := maxXmit_le_conf s conf t hlow hhigh
    exact (hxmit (by rw [hc]; exact hne)).trans hle

/-- A session that goes straight to the operational stage. -/
def plainSession : LoginSession :=
  { initiatorName := ascii "iqn.initiator", targetName := ascii "iqn.target" }

def plainConf : OperationalConf := ⟨262144, 65536, 1, true, false, 65536, 262144⟩

def finalAnswer (text : List UInt8) : Round :=
  ⟨LoginSecurity.quietEnv, 8192, ⟨0x87, 0, 0, 0, 0, 0, 0, text⟩, rfl⟩

/-- A target that keeps to the offer. -/
theorem negotiated_limits_kept :
    (trackedRounds secretByteDigest (fun _ => true)
      (iscsiCopyOperationalParams plainSession plainConf .plain)
      [finalAnswer (ascii "MaxRecvDataSegmentLength=8192" ++ [0])]).progress.session.maxXmitDlength ≤
        65536 :=
  (negotiated_limits secretByteDigest (fun _ => true) plainSession plainConf .plain
    [finalAnswer (ascii "MaxRecvDataSegmentLength=8192" ++ [0])] rfl rfl (Or.inr (by decide))
    (by decide +kernel) (by decide +kernel)).1 (by decide)

/-- A target may answer `FirstBurstLength` beyond the offer, and a segment length
that is negative as an `int` passes for a small one. -/
theorem answers_beyond_offer :
    (iscsiCopyOperationalParams plainSession plainConf .plain).firstBurst = 65536 ∧
    (trackedRounds secretByteDigest (fun _ => true)
      (iscsiCopyOperationalParams plainSession plainConf .plain)
      [finalAnswer (ascii "FirstBurstLength=16777215" ++ [0])]).accepted = true ∧
    (trackedRounds secretByteDigest (fun _ => true)
      (iscsiCopyOperationalParams plainSession plainConf .plain)
      [finalAnswer (ascii "FirstBurstLength=16777215" ++ [0])]).progress.session.currentStage =
        fullFeaturePhase ∧
    (trackedRounds secretByteDigest (fun _ => true)
      (iscsiCopyOperationalParams plainSession plainConf .plain)
      [finalAnswer (ascii "FirstBurstLength=16777215" ++ [0])]).progress.session.firstBurst =
        16777215 ∧
    (trackedRounds secretByteDigest (fun _ => true)
      (iscsiCopyOperationalParams plainSession plainConf .plain)
      [finalAnswer (ascii "MaxRecvDataSegmentLength=4294967295" ++
        [0])]).progress.session.maxXmitDlength = 4294967295 := by
  decide +kernel

end LoginLimits
