import OpenIscsi.LoginSecurity

/-!
# How many messages a CHAP exchange takes

`acl_recv_end` counts the messages of an exchange and fails the authentication
when there are too many. Nothing else touches the counter, so a login has a
bounded number of responses in its security stage.
-/

namespace AuthRounds

open CString AuthText AuthKeys AuthClient AuthApi LoginKeys Login LoginFrame LoginSecurity

/-! ## What leaves the counter alone -/

variable (D : Digest) (env : Env) (session : Session) (c : IscsiAcl) {maxDataLength : Nat}
  (dbg : DbgStatus) {s : LoginSession}

@[simp] theorem setSend_count (k : KeyType) (v : Option (List UInt8)) :
    (c.setSend k v).recvEndCount = c.recvEndCount := rfl

@[simp] theorem failDone_count :
    (failDone c dbg).recvEndCount = c.recvEndCount := rfl

@[simp] theorem localFail_count :
    (localFail c dbg).recvEndCount = c.recvEndCount := rfl

@[simp] theorem rmtFail_count :
    (rmtFail c dbg).recvEndCount = c.recvEndCount := rfl

@[simp] theorem aclSetAuthMethodKey_count (options : List Int) :
    (aclSetAuthMethodKey c options).recvEndCount = c.recvEndCount := by
  unfold aclSetAuthMethodKey
  split
  · rfl
  · split <;> rfl

@[simp] theorem aclChkAuthMethodKey_count :
    (aclChkAuthMethodKey c).recvEndCount = c.recvEndCount := by
  unfold aclChkAuthMethodKey
  dsimp only
  split <;> rfl

@[simp] theorem aclSetChapAlgKey_count (options : List Int) :
    (aclSetChapAlgKey c options).recvEndCount = c.recvEndCount := by
  unfold aclSetChapAlgKey
  split
  · rfl
  · split
    · rfl
    · split <;> rfl

@[simp] theorem aclChkChapAlgKey_count :
    (aclChkChapAlgKey c).recvEndCount = c.recvEndCount := by
  unfold aclChkChapAlgKey
  dsimp only
  split
  · rfl
  · split <;> rfl

@[simp] theorem aclNextPhase_count :
    (aclNextPhase c).recvEndCount = c.recvEndCount := by
  unfold aclNextPhase
  dsimp only
  repeat' split
  all_goals rfl

@[simp] theorem localRecvChallenge_count :
    (localRecvChallenge D env c).recvEndCount = c.recvEndCount := by
  unfold localRecvChallenge
  dsimp only
  repeat' split
  all_goals rfl

@[simp] theorem localRecvAlg_count :
    (localRecvAlg D env c).recvEndCount = c.recvEndCount := by
  have hread : (localReadAlg c).recvEndCount = c.recvEndCount := by
    unfold localReadAlg
    dsimp only
    split <;> simp
  rw [← hread, localRecvAlg]
  unfold localTakeAlg
  repeat' split
  all_goals simp

@[simp] theorem aclLocalAuth_count :
    (aclLocalAuth D env c).recvEndCount = c.recvEndCount := by
  unfold aclLocalAuth
  repeat' split
  all_goals simp

@[simp] theorem rmtSendChallenge_count :
    (rmtSendChallenge env c).recvEndCount = c.recvEndCount := by
  unfold rmtSendChallenge
  dsimp only
  repeat' split
  all_goals rfl

@[simp] theorem recordVerdict_count (status : AuthStatus) :
    (recordVerdict c status).recvEndCount = c.recvEndCount := by
  unfold recordVerdict
  dsimp only
  repeat' split
  all_goals rfl

@[simp] theorem rmtRecvRsp_count :
    (rmtRecvRsp D env session c).recvEndCount = c.recvEndCount := by
  unfold rmtRecvRsp
  dsimp only
  repeat' split
  all_goals simp

@[simp] theorem aclRmtAuth_count :
    (aclRmtAuth D env session c).recvEndCount = c.recvEndCount := by
  unfold aclRmtAuth
  repeat' split
  all_goals simp

@[simp] theorem recvEndAuthenticate_count : (recvEndAuthenticate D env session c).recvEndCount = c.recvEndCount := by
  unfold recvEndAuthenticate closeFailed bothSides
  dsimp only
  repeat' split
  all_goals simp

@[simp] theorem aclHandShake_count :
    (aclHandShake c).recvEndCount = c.recvEndCount := by
  unfold aclHandShake
  repeat' split
  all_goals simp

@[simp] theorem suppressSend_count :
    (suppressSend c).recvEndCount = c.recvEndCount := by
  unfold suppressSend
  dsimp only
  repeat' split
  all_goals rfl

@[simp] theorem rcvEndVerdict_count :
    (rcvEndVerdict c).1.recvEndCount = c.recvEndCount := by
  unfold rcvEndVerdict
  dsimp only
  repeat' split
  all_goals rfl

@[simp] theorem rcvEndBlocks_count (status : AuthStatus) :
    (rcvEndBlocks c status).1.recvEndCount = c.recvEndCount := by
  unfold rcvEndBlocks
  repeat' split
  all_goals rfl

@[simp] theorem aclRcvEndStatus_count :
    (aclRcvEndStatus c).1.recvEndCount = c.recvEndCount := by
  unfold aclRcvEndStatus
  dsimp only
  repeat' split
  all_goals simp

@[simp] theorem recvEndNegotiate_count :
    (recvEndNegotiate c).1.recvEndCount = c.recvEndCount := by
  unfold recvEndNegotiate
  dsimp only
  repeat' split
  all_goals simp

@[simp] theorem recvEndFinish_count
    (nextPhaseFlag : Bool) :
    (recvEndFinish D env session c nextPhaseFlag).1.recvEndCount = c.recvEndCount := by
  unfold recvEndFinish
  split
  · split <;> simp
  · simp
  · simp
  · rfl

/-! ## The counter -/

/-- Over the limit the message is refused. -/
theorem recvEndFinish_fail
    (hphase : c.phase = .done) (hfail : c.rmtAuthStatus = .fail) (nextPhaseFlag : Bool) :
    (recvEndFinish D env session c nextPhaseFlag).2 = .fail := by
  have hshake : aclHandShake c = c := by rw [aclHandShake, if_pos hphase]
  have hverdict : rcvEndVerdict c = (c, .fail) := by simp [rcvEndVerdict, hphase, hfail]
  rw [recvEndFinish, hphase]
  dsimp only
  rw [hshake, aclRcvEndStatus, if_neg (by rw [hphase]; decide), hverdict]
  rfl

/-- A message that is accepted is counted, and there are not too many. -/
theorem aclRecvEnd_count
    (h : (aclRecvEnd D env session c).2 = .cont ∨ (aclRecvEnd D env session c).2 = .pass) :
    c.recvEndCount ≤ authRecvEndMaxCount ∧
      (aclRecvEnd D env session c).1.recvEndCount = c.recvEndCount + 1 := by
  unfold aclRecvEnd at h ⊢
  by_cases hsig : c.signature ≠ aclSignature
  · rw [if_pos hsig] at h
    simp at h
  rw [if_neg hsig] at h ⊢
  by_cases herr : c.phase = .error
  · rw [if_pos herr] at h
    simp at h
  rw [if_neg herr] at h ⊢
  by_cases hin : (!c.recvInProgressFlag) = true
  · rw [if_pos hin] at h
    simp [outOfTurn] at h
  rw [if_neg hin] at h ⊢
  have hkeep : (recvEndLimits c).recvEndCount = c.recvEndCount := by
    unfold recvEndLimits
    repeat' split
    all_goals rfl
  constructor
  · by_contra hmany
    have hlimit : recvEndLimits c = failDone c .recvMsgCountLimit := by
      rw [recvEndLimits, if_pos (by omega)]
    rw [hlimit] at h
    have hfail := recvEndFinish_fail D env session
      { failDone c .recvMsgCountLimit with
        recvEndCount := (failDone c .recvMsgCountLimit).recvEndCount + 1 } rfl rfl false
    rcases h with h | h
    · exact absurd (hfail.symm.trans h) (by decide)
    · exact absurd (hfail.symm.trans h) (by decide)
  · dsimp only
    rw [hkeep]
    split
    · simp
    · simp
    · simp
    · rfl

@[simp] theorem aclRecvBegin_count :
    (aclRecvBegin c).1.recvEndCount = c.recvEndCount := by
  unfold aclRecvBegin
  dsimp only
  repeat' split
  all_goals first | rfl | simp

@[simp] theorem aclRecvTransitBit_count (value : Bool) :
    (aclRecvTransitBit c value).1.recvEndCount = c.recvEndCount := by
  unfold aclRecvTransitBit
  repeat' split
  all_goals rfl

@[simp] theorem aclRecvKeyValue_count (keyType : Int) (v : Option (List UInt8)) :
    (aclRecvKeyValue c keyType v).1.recvEndCount = c.recvEndCount := by
  unfold aclRecvKeyValue
  repeat' split
  all_goals rfl

@[simp] theorem aclSendTransitBit_count :
    (aclSendTransitBit c).1.recvEndCount = c.recvEndCount := by
  unfold aclSendTransitBit
  repeat' split
  all_goals rfl

@[simp] theorem aclSendKeyVal_count (keyType : Int) (maxLength : Nat) :
    (aclSendKeyVal c keyType maxLength).1.recvEndCount = c.recvEndCount := by
  unfold aclSendKeyVal
  dsimp only
  repeat' split
  all_goals rfl

@[simp] theorem aclSetAuthMethodValid_count :
    (aclSetAuthMethodValid c).recvEndCount = c.recvEndCount := by
  unfold aclSetAuthMethodValid
  dsimp only
  repeat' split
  all_goals simp

@[simp] theorem setCall_count (call : SetCall) :
    (call.apply c).1.recvEndCount = c.recvEndCount := by
  cases call with
  | userName name =>
    dsimp only [SetCall.apply, aclSetUserName, outOfTurn]
    repeat' split
    all_goals rfl
  | passwd data =>
    dsimp only [SetCall.apply, aclSetPasswd, outOfTurn]
    repeat' split
    all_goals simp
  | chapAlgList options =>
    dsimp only [SetCall.apply, aclSetChapAlgList, refuseOptions, outOfTurn]
    repeat' split
    all_goals rfl
  | authRmt value =>
    dsimp only [SetCall.apply, aclSetAuthRmt, outOfTurn]
    repeat' split
    all_goals simp
  | ipSec value =>
    dsimp only [SetCall.apply, aclSetIpSec, outOfTurn]
    repeat' split
    all_goals rfl

/-! ## The counter of a login -/

def rounds (s : LoginSession) : Nat :=
  match s.authClient with
  | none => 0
  | some c => c.recvEndCount

theorem rounds_of_some {c : IscsiAcl} (h : s.authClient = some c) :
    rounds s = c.recvEndCount := by
  rw [rounds, h]

theorem rounds_congr {t : LoginSession} (h : s.authClient = t.authClient) :
    rounds s = rounds t := by
  rw [rounds, rounds, h]

theorem applyCalls_count {calls : List SetCall} {c d : IscsiAcl}
    (h : applyCalls calls c = some d) : d.recvEndCount = c.recvEndCount := by
  induction calls generalizing c with
  | nil =>
    cases h
    rfl
  | cons call calls ih =>
    rw [applyCalls] at h
    split at h
    · cases h
    · rw [ih h, setCall_count]

theorem aclInit_count (nodeType : NodeType) : (aclInit nodeType).1.recvEndCount = 0 := by
  cases nodeType <;> decide +kernel

/-- A login starts with a new client. -/
theorem rounds_iscsiLoginBegin (usable : Int → Bool) (s : LoginSession) :
    rounds (iscsiLoginBegin usable s).1 = 0 := by
  have hcheck : (checkForAuthentication usable s).1.recvEndCount = 0 := by
    unfold checkForAuthentication
    dsimp only
    split
    · exact aclInit_count .initiator
    · split
      · rename_i c hc
        exact (applyCalls_count hc).trans (aclInit_count .initiator)
      · rfl
  unfold iscsiLoginBegin
  dsimp only
  cases hc : s.authClient with
  | none => simp [rounds]
  | some c => exact hcheck

theorem enumAuthKeys_count (maxDataLength : Nat) (keys : List KeyType)
    (r : IscsiAcl × List UInt8) :
    (keys.foldl (enumAuthKeys maxDataLength) r).1.recvEndCount = r.1.recvEndCount := by
  induction keys generalizing r with
  | nil => rfl
  | cons k keys ih =>
    rw [List.foldl_cons, ih]
    unfold enumAuthKeys
    dsimp only
    split <;> simp

/-- A request is made in one of the two stages, and it is not a message that counts. -/
theorem stageRequest_made {s' : LoginSession} {text : List UInt8}
    {req : LoginReq} (h : stageRequest maxDataLength s text = (s', some req)) :
    s'.currentStage = s.currentStage ∧ rounds s' = rounds s ∧
      (s.currentStage = opParmsNegotiationStage ∨ s.currentStage = securityNegotiationStage) := by
  unfold stageRequest at h
  by_cases hop : s.currentStage = opParmsNegotiationStage
  · rw [if_pos hop] at h
    have hs := congrArg Prod.fst h
    dsimp only [fillOpParamsText] at hs
    subst hs
    exact ⟨hop.symm, rfl, .inl hop⟩
  · rw [if_neg hop] at h
    by_cases hsec : s.currentStage = securityNegotiationStage
    · rw [if_pos hsec] at h
      cases hc : s.authClient with
      | none =>
        rw [hc] at h
        cases congrArg Prod.snd h
      | some c =>
        rw [hc] at h
        have hs := congrArg Prod.fst h
        dsimp only [fillSecurityParamsText] at hs
        have hrounds := rounds_of_some hc
        split at hs
        · subst hs
          exact ⟨rfl, by rw [hrounds]; exact aclSendTransitBit_count c, .inr hsec⟩
        · subst hs
          refine ⟨rfl, ?_, .inr hsec⟩
          rw [hrounds]
          exact (enumAuthKeys_count _ _ _).trans (aclSendTransitBit_count c)
    · rw [if_neg hsec] at h
      cases congrArg Prod.snd h

theorem iscsiMakeLoginPdu_made {s' : LoginSession} {req : LoginReq}
    (h : iscsiMakeLoginPdu maxDataLength s = (s', some req)) :
    rounds s' = rounds s ∧
      (s.currentStage = initialLoginStage ∨ s'.currentStage = s.currentStage) ∧
      (s'.currentStage = opParmsNegotiationStage ∨
        s'.currentStage = securityNegotiationStage) := by
  unfold iscsiMakeLoginPdu at h
  by_cases hinit : s.currentStage = initialLoginStage
  · rw [if_pos hinit] at h
    dsimp only at h
    cases hfirst : (firstRequest maxDataLength s).2 with
    | none =>
      rw [hfirst] at h
      cases congrArg Prod.snd h
    | some text =>
      rw [hfirst] at h
      obtain ⟨hstage, hrounds, hcases⟩ := stageRequest_made h
      have hclient := rounds_congr (firstRequest_authClient maxDataLength s)
      rw [← hstage] at hcases
      exact ⟨hrounds.trans hclient, .inl hinit, hcases⟩
  · rw [if_neg hinit] at h
    obtain ⟨hstage, hrounds, hcases⟩ := stageRequest_made h
    rw [← hstage] at hcases
    exact ⟨hrounds, .inr hstage, hcases⟩

/-! ## The counter of a response -/

def InSecurity (n : Nat) (s : LoginSession) : Prop :=
  s.currentStage = securityNegotiationStage ∧ ∃ c, s.authClient = some c ∧ c.recvEndCount = n

theorem keyRead_count {c d : IscsiAcl} (h : KeyRead c d) : d.recvEndCount = c.recvEndCount := by
  rcases h with rfl | ⟨n, raw, rfl⟩
  · rfl
  · exact aclRecvKeyValue_count c n raw

theorem stageKeys_inSecurity (env : RspEnv) {n : Nat} (text : List UInt8) (h : InSecurity n s) :
    InSecurity n (stageKeys env s text).1 := by
  obtain ⟨hstage, c, hc, hn⟩ := h
  obtain ⟨hf, d, hd, hread⟩ := getSecurityTextKeys_frame env s c hc text
  have hcur := congrArg (fun f => f.stage.currentStage) hf
  rw [stageKeys, if_pos hstage, hc]
  exact ⟨hcur.trans hstage, d, hd, (keyRead_count hread).trans hn⟩

theorem rspBegin_inSecurity {r : LoginRsp}
    (hstage : s.currentStage = securityNegotiationStage) (hok : (rspBegin s r).2 = .ok) :
    InSecurity (rounds s) (rspBegin s r).1 := by
  unfold rspBegin at hok ⊢
  rw [if_pos hstage] at hok ⊢
  cases hc : s.authClient with
  | none =>
    rw [hc] at hok
    cases hok
  | some c =>
    have hrounds := rounds_of_some hc
    dsimp only
    split
    · exact ⟨hstage, _, rfl, by rw [hrounds]; exact aclRecvBegin_count c⟩
    · refine ⟨hstage, _, rfl, ?_⟩
      rw [hrounds, aclRecvTransitBit_count, aclRecvBegin_count]

/-- A response that is accepted in the security stage counts as a message. -/
theorem process_rounds {D : Digest} {env : RspEnv} {r : LoginRsp}
    (hstage : s.currentStage = securityNegotiationStage)
    (hok : (iscsiProcessLoginResponse D env maxDataLength s r).status = .ok) :
    rounds s ≤ authRecvEndMaxCount ∧
      rounds (iscsiProcessLoginResponse D env maxDataLength s r).session = rounds s + 1 := by
  obtain ⟨hbegin, -, hgood, hsession⟩ := process_accepted hok
  rw [hsession]
  have hscan := scanText_invariant env (InSecurity (rounds s))
    (fun t text ht => stageKeys_inSecurity env text ht) (r.text.length + 1) _ r.text
    (rspBegin_inSecurity hstage hbegin)
  generalize scanText env (r.text.length + 1) (rspBegin s r).1 r.text = k at hgood hscan ⊢
  obtain ⟨hcur, c, hc, hn⟩ := hscan
  have hverdict : rspVerdict D env k.1 = checkSecurityStageStatus D env k.1 c := by
    rw [rspVerdict, if_pos hcur, hc]
  rw [hverdict, checkSecurityStageStatus] at hgood ⊢
  split at hgood
  · rename_i hend
    obtain ⟨hle, hcount⟩ := aclRecvEnd_count D env.crypto k.1.credentials c hend
    rw [hn] at hle hcount
    refine ⟨hle, ?_⟩
    rw [if_pos hend, rounds_congr (rspRecord_authClient _ r)]
    exact hcount
  · cases hgood

end AuthRounds
