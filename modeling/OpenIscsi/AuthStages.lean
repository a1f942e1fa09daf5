import OpenIscsi.AuthExchange

/-!
# The stages of an initiator

In the authentication phase the two sub-states of an initiator move together:
algorithms sent, challenge sent, response checked. One lemma per stage says what
`acl_recv_end` makes of it.
-/

namespace AuthStages

open CString AuthText AuthKeys AuthClient AuthApi AuthRun AuthFrame AuthExchange

/-- The negotiated algorithm is a digest of the client's own list. -/
def AlgChosen (c : IscsiAcl) : Prop :=
  ∃ a, chapAlgOfCode c.negotiatedChapAlg = some a ∧ c.negotiatedChapAlg ∈ c.chapAlgList ∧
    c.chapChallengeLen = a.rspLen

/-! ## Negotiation -/

/-- The phase after a negotiated method. -/
inductive Opened (c d : IscsiAcl) : Prop
  | closed (hs : setup d = setup c) (hp : d.phase = .done) (hv : d.rmtAuthStatus = .fail)
  | chap (hf : shared d = { shared c with phase := .authenticate })
      (hv : d.rmtAuthStatus = c.rmtAuthStatus) (hl : d.localState = .sendAlg) (hr : d.rmtState = .sendAlg)
  | settled (hf : shared d = { shared c with phase := .authenticate })
      (hv : d.rmtAuthStatus = .fail ∨ (d.rmtAuthStatus = .pass ∧ c.authRmt = false))
      (hl : d.localState = .done) (hr : d.rmtState = .done)

variable (D : Digest) (env : Env) (session : Session) (c : IscsiAcl)

theorem aclNextPhase_opened (hp : c.phase = .negotiate) :
    Opened c (aclNextPhase c) := by
  unfold aclNextPhase
  rw [hp]
  dsimp only
  split
  · cases hr : c.authRmt with
    | true => exact .closed (by simp [setup, hr]) rfl rfl
    | false => exact .settled (by simp [shared, setup, hr]) (.inr ⟨rfl, hr⟩) rfl rfl
  · split
    · exact .chap rfl rfl rfl rfl
    · exact .settled rfl (.inl rfl) rfl rfl

theorem aclChkAuthMethodKey_localFrame :
    localFrame (aclChkAuthMethodKey c) = localFrame c := by
  have hread := localFrame_read c (c.recvKeyBlock.markProcessed .authMethod) rfl
    (markProcessed_keyVal_eq _ _)
  rw [← hread]
  unfold aclChkAuthMethodKey aclGetKeyVal
  dsimp only
  split <;> rfl

/-- An originator leaves the negotiation with the answer to its offer. -/
theorem recvEndNegotiate_opened (hrole : c.authMethodValidNegRole = .originator)
    (hp : c.phase = .negotiate) : Opened c (recvEndNegotiate c).1 := by
  have hf := aclChkAuthMethodKey_localFrame c
  generalize hd : aclChkAuthMethodKey c = d at hf
  have hsh : shared d = shared c := congrArg LocalFrame.shared hf
  have hrole' : d.authMethodValidNegRole = .originator :=
    (congrArg Shared.authMethodValidNegRole hsh).trans hrole
  have hp' : d.phase = .negotiate := (congrArg Shared.phase hsh).trans hp
  have hv : d.rmtAuthStatus = c.rmtAuthStatus := congrArg LocalFrame.rmtAuthStatus hf
  have hset : setup d = setup c := congrArg Shared.setup hsh
  unfold recvEndNegotiate
  rw [hd]
  dsimp only
  rw [hrole']
  dsimp only
  split
  · exact .closed hset rfl rfl
  · cases aclNextPhase_opened d hp' with
    | closed hs hp' hv' => exact .closed (hs.trans hset) hp' hv'
    | chap hf' hv' hl hr => exact .chap (by rw [hf', hsh]) (hv'.trans hv) hl hr
    | settled hf' hv' hl hr =>
      have hrmt : d.authRmt = c.authRmt := congrArg Setup.authRmt hset
      exact .settled (by rw [hf', hsh]) (by rw [← hrmt]; exact hv') hl hr

/-! ## The local side of an initiator -/

theorem aclChkChapAlgKey_chosen
    (h : chapAlgOfCode (aclChkChapAlgKey c).negotiatedChapAlg ≠ none) :
    AlgChosen (aclChkChapAlgKey c) := by
  cases hk : c.recvKeyBlock.keyVal .chapAlg with
  | none =>
    have hn : (aclChkChapAlgKey c).negotiatedChapAlg = authOptionNotPresent := by
      simp [aclChkChapAlgKey, aclGetKeyVal, hk]
    rw [hn] at h
    exact absurd (by decide) h
  | some s =>
    cases hscan : (scanItems (chapAlgItem c.chapAlgList) (tokens s) c.scratchKeyValue).1 with
    | none =>
      have hn : (aclChkChapAlgKey c).negotiatedChapAlg = authOptionReject := by
        simp [aclChkChapAlgKey, aclGetKeyVal, hk, hscan]
      rw [hn] at h
      exact absurd (by decide) h
    | some alg =>
      have hn : (aclChkChapAlgKey c).negotiatedChapAlg = alg := by
        simp [aclChkChapAlgKey, aclGetKeyVal, hk, hscan]
      have hlist : (aclChkChapAlgKey c).chapAlgList = c.chapAlgList := by
        simp [aclChkChapAlgKey, aclGetKeyVal, hk, hscan]
      rw [hn] at h
      obtain ⟨a, ha⟩ := Option.ne_none_iff_exists'.mp h
      have hlen : (aclChkChapAlgKey c).chapChallengeLen = a.rspLen := by
        simp [aclChkChapAlgKey, aclGetKeyVal, hk, hscan, ha]
      have hmem : alg ∈ c.chapAlgList := by
        rw [scanItems_fst] at hscan
        obtain ⟨item, -, hitem⟩ := List.exists_of_findSome?_eq_some hscan
        unfold chapAlgItem at hitem
        split at hitem
        · simp at hitem
        · exact List.mem_of_find?_eq_some hitem
      exact ⟨a, by rw [hn, ha], by rw [hn, hlist]; exact hmem, hlen⟩

/-- The challenge is answered or the local side fails; the algorithm stays. -/
theorem localRecvChallenge_state :
    ((localRecvChallenge D env c).localState = .error ∨
      (localRecvChallenge D env c).localState = .done) ∧
    (localRecvChallenge D env c).negotiatedChapAlg = c.negotiatedChapAlg ∧
    (localRecvChallenge D env c).chapChallengeLen = c.chapChallengeLen := by
  unfold localRecvChallenge aclGetKeyVal
  dsimp only
  repeat' split
  all_goals first
    | exact ⟨.inl rfl, rfl, rfl⟩
    | exact ⟨.inr rfl, rfl, rfl⟩

theorem localRecvAlg_initiator
    (hnode : c.nodeType = .initiator) :
    (localRecvAlg D env c).localState = .error ∨
      ((localRecvAlg D env c).localState = .done ∧ AlgChosen (localRecvAlg D env c)) := by
  have hnode' : (aclChkChapAlgKey c).nodeType = .initiator :=
    (congrArg (fun f => f.shared.setup.nodeType) (aclChkChapAlgKey_localFrame c)).trans hnode
  have hread : localReadAlg c = aclChkChapAlgKey c := by simp [localReadAlg, hnode']
  rw [localRecvAlg, hread, localTakeAlg]
  split
  · exact .inl rfl
  · split
    · exact .inl rfl
    · split
      · exact .inl rfl
      · rename_i hsome
        rw [if_neg (by simp [hnode'])]
        have hchosen := aclChkChapAlgKey_chosen c hsome
        obtain ⟨hstate, halg, hlen⟩ := localRecvChallenge_state D env (aclChkChapAlgKey c)
        have hlist : (localRecvChallenge D env (aclChkChapAlgKey c)).chapAlgList =
            (aclChkChapAlgKey c).chapAlgList :=
          congrArg (fun f => f.shared.setup.chapAlgList)
            (localRecvChallenge_localFrame D env (aclChkChapAlgKey c))
        rcases hstate with hstate | hstate
        · exact .inl hstate
        · refine .inr ⟨hstate, ?_⟩
          rw [AlgChosen, halg, hlen, hlist]
          exact hchosen

/-! ## Both sides of an initiator, stage by stage -/

theorem closeFailed_cases :
    (setup (closeFailed c) = setup c ∧ (closeFailed c).phase = .done ∧
        (closeFailed c).rmtAuthStatus = .fail) ∨
      (closeFailed c = c ∧ c.localState ≠ .error ∧ c.rmtState ≠ .error) := by
  unfold closeFailed
  split
  · exact .inl ⟨rfl, rfl, rfl⟩
  · rename_i h
    exact .inr ⟨rfl, fun hl => h (.inl hl), fun hr => h (.inr hr)⟩

/-- The algorithms are sent. -/
theorem bothSides_start
    (hnode : c.nodeType = .initiator) (hl : c.localState = .sendAlg) (hr : c.rmtState = .sendAlg) :
    shared (bothSides D env session c) = shared c ∧
      (bothSides D env session c).rmtAuthStatus = c.rmtAuthStatus ∧
      (bothSides D env session c).localState = .recvAlg ∧
      (bothSides D env session c).rmtState = .sendChallenge := by
  have hlocal : aclLocalAuth D env c =
      { aclSetChapAlgKey c c.chapAlgList with localState := .recvAlg } := by
    simp [aclLocalAuth, hl, hnode]
  have hf := aclSetChapAlgKey_localFrame c c.chapAlgList
  have hrmt : (aclSetChapAlgKey c c.chapAlgList).rmtState = .sendAlg :=
    (congrArg LocalFrame.rmtState hf).trans hr
  have hnode' : (aclSetChapAlgKey c c.chapAlgList).nodeType = .initiator :=
    (congrArg (fun f => f.shared.setup.nodeType) hf).trans hnode
  have heq : bothSides D env session c =
      { aclSetChapAlgKey c c.chapAlgList with
        localState := .recvAlg
        rmtState := .sendChallenge } := by
    simp [bothSides, hlocal, aclRmtAuth, hrmt, hnode']
  rw [heq]
  exact ⟨congrArg LocalFrame.shared hf, congrArg LocalFrame.rmtAuthStatus hf, rfl, rfl⟩

/-- The random values of one call are the ones kept for the check. -/
def Drawn (env : Env) (c : IscsiAcl) : Prop :=
  env.randId = some c.sendChapIdentifier ∧
    ∃ bytes, env.randChallenge = some bytes ∧
      c.sendChapChallenge = (List.range c.chapChallengeLen).map bytes

def Offering (c : IscsiAcl) : Prop :=
  c.sendKeyBlock.keyVal .chapIdentifier = some (decimal c.sendChapIdentifier.toNat) ∧
    c.sendKeyBlock.keyVal .chapChallenge = some []

/-- The challenge of the remote side. -/
inductive Challenging (env : Env) (c d : IscsiAcl) : Prop
  | failed (h : d.rmtState = .error)
  | skipped (hrmt : c.authRmt = false) (hs : d.rmtState = .done) (hv : d.rmtAuthStatus = .pass)
  | sent (hs : d.rmtState = .recvRsp) (hv : d.rmtAuthStatus = c.rmtAuthStatus) (hd : Drawn env d)
      (ho : d.sendKeyBlock.clean = true → Offering d)

theorem rmtSendChallenge_challenging :
    Challenging env c (rmtSendChallenge env c) := by
  unfold rmtSendChallenge
  cases hrmt : c.authRmt with
  | false => exact .skipped hrmt (by simp) (by simp)
  | true =>
    cases hid : env.randId with
    | none => exact .failed (by simp [rmtFail])
    | some id =>
      cases hch : env.randChallenge with
      | none => exact .failed (by simp [rmtFail])
      | some bytes =>
        refine .sent (by simp) (by simp [IscsiAcl.setSend]) ?_ ?_
        · exact ⟨by simp [hid, IscsiAcl.setSend], bytes, by simp [hch], by simp [IscsiAcl.setSend]⟩
        · intro hclean
          simp only [Bool.not_true, Bool.false_eq_true, if_false, IscsiAcl.setSend] at hclean
          obtain ⟨hval, hterm⟩ := aclSetKeyValue_keyVal_self _ _ _
            (aclSetKeyValue_clean _ _ _ hclean).1
          obtain ⟨hchal, -⟩ := aclSetKeyValue_keyVal_self _ _ _ hclean
          refine ⟨?_, ?_⟩
          · simp only [Bool.not_true, Bool.false_eq_true, if_false, IscsiAcl.setSend]
            rw [aclSetKeyValue_keyVal_of_ne _ _ _ _ hterm (by decide), hval,
              cstr_of_nulFree _ (decimal_nulFree _)]
          · simp only [Bool.not_true, Bool.false_eq_true, if_false, IscsiAcl.setSend]
            exact hchal

/-- The challenge of the target is answered and an own one is sent. -/
theorem bothSides_challenge
    (hnode : c.nodeType = .initiator) (hl : c.localState = .recvAlg)
    (hr : c.rmtState = .sendChallenge) :
    shared (bothSides D env session c) = shared c ∧
      ((bothSides D env session c).localState = .error ∨
        ((bothSides D env session c).localState = .done ∧ AlgChosen (bothSides D env session c) ∧
          Challenging env c (bothSides D env session c))) := by
  have hlocal : aclLocalAuth D env c = localRecvAlg D env c := by simp [aclLocalAuth, hl]
  have hf : localFrame (localRecvAlg D env c) = localFrame c := by
    rw [← hlocal]
    exact aclLocalAuth_localFrame D env c (by simp [hl]) (by simp [hl])
  have hstate := localRecvAlg_initiator D env c hnode
  generalize hd : localRecvAlg D env c = d at hf hstate hlocal
  have hsh : shared d = shared c := congrArg LocalFrame.shared hf
  rcases hstate with herr | ⟨hdone, hchosen⟩
  · have heq : bothSides D env session c = d := by simp [bothSides, hlocal, herr]
    rw [heq]
    exact ⟨hsh, .inl herr⟩
  · have hrmt : d.rmtState = .sendChallenge := (congrArg LocalFrame.rmtState hf).trans hr
    have heq : bothSides D env session c = rmtSendChallenge env d := by
      simp [bothSides, hlocal, hdone, aclRmtAuth, hrmt]
    have hrf := rmtSendChallenge_rmtFrame env d
    rw [heq]
    refine ⟨(congrArg RmtFrame.shared hrf).trans hsh, .inr ⟨?_, ?_, ?_⟩⟩
    · exact (congrArg RmtFrame.localState hrf).trans hdone
    · have h1 := congrArg RmtFrame.negotiatedChapAlg hrf
      have h2 := congrArg RmtFrame.chapChallengeLen hrf
      have h3 := congrArg (fun f => f.shared.setup.chapAlgList) hrf
      simp only [rmtFrame, shared, setup] at h1 h2 h3
      rw [AlgChosen, h1, h2, h3]
      exact hchosen
    · have hauth : d.authRmt = c.authRmt := congrArg (fun s => s.setup.authRmt) hsh
      cases rmtSendChallenge_challenging env d with
      | failed h => exact .failed h
      | skipped h hs hv => exact .skipped (hauth ▸ h) hs hv
      | sent hs hv hd' ho =>
        exact .sent hs (hv.trans (congrArg LocalFrame.rmtAuthStatus hf)) hd' ho

/-- The response in the message is the one of the session's secret. -/
structure Answered (D : Digest) (session : Session) (c : IscsiAcl) : Prop where
  username : cstr session.usernameIn ≠ []
  password : session.passwordIn ≠ []
  name : c.recvKeyBlock.keyVal .chapUsername = some (cstr session.usernameIn)
  response : ∃ a text, chapAlgOfCode c.negotiatedChapAlg = some a ∧
    c.recvKeyBlock.keyVal .chapRsp = some text ∧
    aclTextToData (some text) authStrMaxLen =
      some (D.hash a (c.sendChapIdentifier :: session.passwordIn ++ c.sendChapChallenge))

/-- A pass of `acl_chap_auth_request`. -/
theorem aclChapAuthRequest_pass (session : Session)
    (username : List UInt8) (id : UInt8) (challenge response : List UInt8) (init : Bool)
    (hchosen : AlgChosen c)
    (h : aclChapAuthRequest D c session username id challenge response init = .pass) :
    cstr session.usernameIn ≠ [] ∧ cstr username = cstr session.usernameIn ∧
      session.passwordIn ≠ [] ∧
      ∃ a, chapAlgOfCode c.negotiatedChapAlg = some a ∧
        response = D.hash a (id :: session.passwordIn ++ challenge) := by
  obtain ⟨a, ha, -, hlen⟩ := hchosen
  unfold aclChapAuthRequest at h
  split at h
  · cases h
  rename_i hname
  split at h
  · cases h
  rename_i huser
  split at h
  · cases h
  rename_i hpass
  split at h
  · cases h
  rename_i hrlen
  rw [ha] at h
  cases init with
  | false => cases h
  | true =>
    dsimp only at h
    split at h
    · rename_i heq
      have hrl : response.length = c.chapChallengeLen := not_not.mp hrlen
      rw [List.take_of_length_le (by omega),
        List.take_of_length_le (by rw [D.hash_length]; omega)] at heq
      refine ⟨hname, not_not.mp huser, ?_, a, ha, heq⟩
      intro hnil
      simp [hnil] at hpass
    · cases h

/-- The received keys are strings as a key block stores them. -/
def ShortKeys (c : IscsiAcl) : Prop :=
  ∀ k v, k ≠ .chapChallenge → c.recvKeyBlock.keyVal k = some v → NulFree v ∧ v.length < authStrMaxLen

/-- A verdict is a pass only when the request passed. -/
theorem recordVerdict_status (status : AuthStatus) :
    (recordVerdict c status).rmtAuthStatus = .fail ∨
      (status = .pass ∧ (recordVerdict c status).rmtAuthStatus = .pass) := by
  unfold recordVerdict
  dsimp only
  split
  · exact .inl rfl
  · split
    · rename_i h
      exact .inr ⟨h, h⟩
    · split
      · rename_i h
        exact .inl h
      · exact .inl rfl

/-- The check of a response: failed, refused, or answered as the session expects. -/
theorem rmtRecvRsp_verdict
    (hchosen : AlgChosen c) (hshort : ShortKeys c) :
    (rmtRecvRsp D env session c).rmtState = .error ∨
      ((rmtRecvRsp D env session c).rmtState = .done ∧
        ((rmtRecvRsp D env session c).rmtAuthStatus = .fail ∨
          ((rmtRecvRsp D env session c).rmtAuthStatus = .pass ∧ Answered D session c))) := by
  unfold rmtRecvRsp aclGetKeyVal
  dsimp only
  split
  · exact .inl rfl
  · exact .inl rfl
  rename_i rspText nameText hrsp hname
  split
  · exact .inl rfl
  rename_i response hdata
  split
  · exact .inl rfl
  refine .inr ⟨rfl, ?_⟩
  rcases recordVerdict_status _ _ with hfail | ⟨hpass, hok⟩
  · exact .inl hfail
  · refine .inr ⟨hok, ?_⟩
    rw [markProcessed_keyVal] at hname
    obtain ⟨hnul, hlen⟩ := hshort _ _ (by decide) hname
    obtain ⟨huser, heq, hpw, a, ha, hresp⟩ := aclChapAuthRequest_pass D _ _ _ _ _ _ _ hchosen hpass
    rw [strlcpy_fits nameText authStrMaxLen (by rw [cstr_of_nulFree _ hnul]; exact hlen), cstr_cstr,
      cstr_of_nulFree _ hnul] at heq
    refine ⟨huser, hpw, heq ▸ hname, a, rspText, ha, hrsp, ?_⟩
    rw [hdata, hresp]

/-- The response of the target is checked. -/
theorem bothSides_response
    (hl : c.localState = .done) (hr : c.rmtState = .recvRsp) (hchosen : AlgChosen c)
    (hshort : ShortKeys c) :
    rmtFrame (bothSides D env session c) = rmtFrame c ∧
      ((bothSides D env session c).rmtState = .error ∨
        ((bothSides D env session c).rmtState = .done ∧
          ((bothSides D env session c).rmtAuthStatus = .fail ∨
            ((bothSides D env session c).rmtAuthStatus = .pass ∧ Answered D session c)))) := by
  have heq : bothSides D env session c = rmtRecvRsp D env session c := by
    simp [bothSides, aclLocalAuth, aclRmtAuth, hl, hr]
  rw [heq]
  exact ⟨rmtRecvRsp_rmtFrame D env session c, rmtRecvRsp_verdict D env session c hchosen hshort⟩

theorem bothSides_settled
    (hl : c.localState = .done) (hr : c.rmtState = .done) : bothSides D env session c = c := by
  simp [bothSides, aclLocalAuth, aclRmtAuth, hl, hr]

/-! ## The whole call -/

def counted (c : IscsiAcl) : IscsiAcl := { c with recvEndCount := c.recvEndCount + 1 }

theorem outOfTurn_ends : Ends c (outOfTurn c) := ⟨⟨rfl, .inr rfl, .inl rfl⟩, .inl rfl⟩

/-- Whatever closed the client before, the rest of the call ends it. -/
theorem recvEndFinish_closed (d : IscsiAcl)
    (h : Closes c d) (flag : Bool) : Ends c (recvEndFinish D env session d flag) := by
  unfold recvEndFinish
  rcases h.phase with hp | hp
  · rw [hp]
    dsimp only
    rcases handShake_rcvEndStatus d (by simp [hp]) with hend | ⟨-, hnd, -⟩
    · refine ⟨h.trans hend.closes, ?_⟩
      rcases hend.status with hs | hs | hs
      · exact .inl hs
      · exact .inr (.inl hs)
      · rcases h.verdict with hv | hv
        · exact .inr (.inr (hs.trans hv))
        · exact .inr (.inl (hs.trans hv))
    · exact absurd hp hnd
  · rw [hp]
    exact ⟨⟨h.setup, .inr rfl, h.verdict⟩, .inl rfl⟩

theorem recvEndLimits_cases :
    recvEndLimits c = c ∨ ∃ dbg, recvEndLimits c = failDone c dbg := by
  unfold recvEndLimits
  split
  · exact .inr ⟨_, rfl⟩
  · split
    · exact .inr ⟨_, rfl⟩
    · split
      · exact .inr ⟨_, rfl⟩
      · split
        · exact .inr ⟨_, rfl⟩
        · exact .inl rfl

/-- A limit that is hit ends the exchange. -/
theorem recvEndFinish_limit
    (dbg : DbgStatus) : Ends c (recvEndFinish D env session (counted (failDone c dbg)) false) :=
  recvEndFinish_closed D env session c (counted (failDone c dbg)) ⟨rfl, .inl rfl, .inr rfl⟩ false

theorem aclRecvEnd_limit {dbg : DbgStatus}
    (hs : c.signature = aclSignature) (he : c.phase ≠ .error)
    (hin : c.recvInProgressFlag = true) (hlim : recvEndLimits c = failDone c dbg) :
    aclRecvEnd D env session c = recvEndFinish D env session (counted (failDone c dbg)) false := by
  simp [aclRecvEnd, hs, he, hin, hlim, counted, failDone]

/-- A message read in turn is within the limits, or it ends the exchange. -/
theorem aclRecvEnd_limits
    (hs : c.signature = aclSignature) (he : c.phase ≠ .error)
    (hin : c.recvInProgressFlag = true) :
    recvEndLimits c = c ∨ Ends c (aclRecvEnd D env session c) := by
  rcases recvEndLimits_cases c with hlim | ⟨dbg, hlim⟩
  · exact .inl hlim
  · right
    rw [aclRecvEnd_limit D env session c hs he hin hlim]
    exact recvEndFinish_limit D env session c dbg

theorem aclRecvEnd_negotiate
    (hs : c.signature = aclSignature) (hp : c.phase = .negotiate)
    (hin : c.recvInProgressFlag = true) :
    Ends c (aclRecvEnd D env session c) ∨
      aclRecvEnd D env session c =
        recvEndFinish D env session (recvEndNegotiate (counted c)).1
          (recvEndNegotiate (counted c)).2 := by
  rcases aclRecvEnd_limits D env session c hs (by simp [hp]) hin with hlim | hend
  · right
    simp [aclRecvEnd, hs, hp, hin, hlim, counted]
  · exact .inl hend

theorem aclRecvEnd_authenticate
    (hs : c.signature = aclSignature) (hp : c.phase = .authenticate)
    (hin : c.recvInProgressFlag = true) :
    Ends c (aclRecvEnd D env session c) ∨
      aclRecvEnd D env session c =
        aclRcvEndStatus (aclHandShake (recvEndAuthenticate D env session (counted c))) := by
  rcases aclRecvEnd_limits D env session c hs (by simp [hp]) hin with hlim | hend
  · right
    simp [aclRecvEnd, hs, hp, hin, hlim, counted, recvEndFinish]
  · exact .inl hend

end AuthStages
