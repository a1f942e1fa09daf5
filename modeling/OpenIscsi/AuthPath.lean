import OpenIscsi.AuthMessages

/-!
# The parts of `acl_recv_end` on the good path

One lemma for each function the call goes through when the peer plays by the
rules: what it writes is given in full, so that the next function can be run on it.
-/

namespace AuthPath

open CString AuthText AuthKeys AuthClient AuthApi AuthRun AuthStages AuthWire AuthMessages

/-! ## Entering and leaving `acl_recv_end` -/

/-- A client that has read a message of the given values and may go on. -/
structure Reading (c : IscsiAcl) (f : KeyType → Option (List UInt8)) : Prop where
  signature : c.signature = aclSignature
  busy : c.recvInProgressFlag = true
  count : c.recvEndCount ≤ authRecvEndMaxCount
  holds : Holds c.recvKeyBlock f

variable {f : KeyType → Option (List UInt8)}

theorem Reading.limits {c : IscsiAcl} (h : Reading c f) : recvEndLimits c = c := by
  have hclean := h.holds.clean
  have hcount := h.count
  simp only [KeyBlock.clean, Bool.and_eq_true, Bool.not_eq_true'] at hclean
  simp [recvEndLimits, hclean, hcount]

theorem Reading.recvEnd_negotiate {c : IscsiAcl} (h : Reading c f) (hp : c.phase = .negotiate)
    (D : Digest) (env : Env) (session : Session) :
    aclRecvEnd D env session c = recvEndFinish D env session (recvEndNegotiate (counted c)).1
      (recvEndNegotiate (counted c)).2 := by
  simp [aclRecvEnd, h.signature, h.busy, hp, h.limits, counted]

theorem Reading.recvEnd_authenticate {c : IscsiAcl} (h : Reading c f) (hp : c.phase = .authenticate)
    (D : Digest) (env : Env) (session : Session) :
    aclRecvEnd D env session c =
      aclRcvEndStatus (aclHandShake (recvEndAuthenticate D env session (counted c))) := by
  simp [aclRecvEnd, h.signature, h.busy, hp, h.limits, counted, recvEndFinish]

/-- Neither block shows an error, and every received key was asked for. -/
structure Proper (c : IscsiAcl) : Prop where
  send : c.sendKeyBlock.clean = true
  recv : c.recvKeyBlock.unexpectedKey = false

theorem Proper.blocks {c : IscsiAcl} (h : Proper c) (status : AuthStatus) :
    rcvEndBlocks c status = (c, status) := by
  have hsend := h.send
  simp only [KeyBlock.clean, Bool.and_eq_true, Bool.not_eq_true'] at hsend
  simp [rcvEndBlocks, hsend, h.recv]

theorem Proper.status_cont {c : IscsiAcl} (h : Proper c) (hp : c.phase = .authenticate) :
    aclRcvEndStatus c = ({ c with recvInProgressFlag := false }, .cont) := by
  have hv : rcvEndVerdict c = (c, .cont) := by simp [rcvEndVerdict, hp]
  rw [aclRcvEndStatus, if_neg (by simp [hp]), hv]
  simp only [h.blocks]
  rfl

theorem Proper.status_pass {c : IscsiAcl} (h : Proper c) (hp : c.phase = .done)
    (hpass : c.rmtAuthStatus = .pass) (hrsp : c.authRmt = true → c.authRspFlag = true) :
    aclRcvEndStatus c = ({ c with recvInProgressFlag := false }, .pass) := by
  have hnot : ¬ (c.authRmt = true ∧ (!c.authRspFlag) = true ∧ c.rmtAuthStatus = .pass) := by
    rintro ⟨h1, h2, -⟩
    simp [hrsp h1] at h2
  have hv : rcvEndVerdict c = (c, .pass) := by
    simp only [rcvEndVerdict, hp, if_true]
    rw [if_neg hnot, hpass]
  rw [aclRcvEndStatus, if_neg (by simp [hp]), hv]
  simp only [h.blocks]
  rfl

variable (D : Digest) (env : Env) (c : IscsiAcl) {l : LocalState} (a : ChapAlg) {r : RmtState}
  (session : Session) (id : UInt8) (challenge : List UInt8) (rmt : Bool)

theorem closeFailed_ok (hl : c.localState = l) (hr : c.rmtState = r) (hle : l ≠ .error)
    (hre : r ≠ .error) : closeFailed c = c := by
  simp [closeFailed, hl, hr, hle, hre]

theorem bothSides_rmt {c c1 : IscsiAcl} (hlocal : aclLocalAuth D env c = c1)
    (hl : c1.localState = l) (hle : l ≠ .error) :
    bothSides D env session c = aclRmtAuth D env session c1 := by
  simp only [bothSides, hlocal, hl, ne_eq, hle, not_false_eq_true, if_true]

/-- A call without an error: both sides, the handshake, and then the status. -/
theorem Reading.recvEnd_status {c c1 c2 : IscsiAcl} (h : Reading c f) (hp : c.phase = .authenticate)
    (D : Digest) (env : Env) (session : Session) (hboth : bothSides D env session (counted c) = c1)
    (hl : c1.localState = l) (hr : c1.rmtState = r) (hle : l ≠ .error) (hre : r ≠ .error)
    (hshake : aclHandShake c1 = c2) :
    aclRecvEnd D env session c = aclRcvEndStatus c2 := by
  rw [h.recvEnd_authenticate hp, recvEndAuthenticate, hboth, closeFailed_ok c1 hl hr hle hre, hshake]

/-! ## Phases and transit bits -/

theorem aclNextPhase_chap (hp : c.phase = .negotiate)
    (hm : c.negotiatedAuthMethod = authMethodChap) :
    aclNextPhase c = { c with phase := .authenticate, localState := .sendAlg, rmtState := .sendAlg } := by
  have hno : ¬ (c.negotiatedAuthMethod = authOptionReject ∨
      c.negotiatedAuthMethod = authOptionNotPresent ∨ c.negotiatedAuthMethod = authOptionNone) := by
    rw [hm]
    decide
  unfold aclNextPhase
  rw [hp]
  dsimp only
  rw [if_neg hno, if_pos hm]

theorem aclNextPhase_done (hp : c.phase = .authenticate) :
    aclNextPhase c = { c with phase := .done } := by
  unfold aclNextPhase
  rw [hp]

/-- Nothing happens to the transit bits while this side has not drawn a challenge. -/
theorem aclHandShake_early (hp : c.phase = .authenticate)
    (hr : c.rmtState = .sendAlg ∨ c.rmtState = .sendChallenge)
    (ht : c.nodeType = .initiator → c.recvKeyBlock.transitBit = false) : aclHandShake c = c := by
  have hillegal : ¬ (c.nodeType = .initiator ∧ c.recvKeyBlock.transitBit = true ∧
      (!c.transitBitSentFlag) = true) := fun h => by simp [ht h.1] at h
  have hpre : ¬ (c.nodeType = .initiator ∧ c.recvKeyBlock.transitBit = true) := fun h => by
    simp [ht h.1] at h
  have hstate : ¬ (c.rmtState = .recvRsp ∨ c.rmtState = .done) := by
    rcases hr with hr | hr <;> simp [hr]
  unfold aclHandShake
  rw [if_neg (by simp [hp]), if_neg hillegal, if_neg (by simp [hp]), if_neg hstate, if_neg hpre]

/-- A target waits for the transit bit while it waits for the response. -/
theorem aclHandShake_challenging (hp : c.phase = .authenticate)
    (hr : c.rmtState = .recvRsp) (hn : c.nodeType = .target)
    (ht : c.recvKeyBlock.transitBit = false) : aclHandShake c = c := by
  unfold aclHandShake
  simp [hp, hr, hn, ht]

/-- An initiator asks for the transition once it has nothing more to request. -/
theorem aclHandShake_asks (hp : c.phase = .authenticate)
    (hr : c.rmtState = .recvRsp ∨ c.rmtState = .done) (hn : c.nodeType = .initiator)
    (ht : c.recvKeyBlock.transitBit = false) :
    aclHandShake c = { c with sendKeyBlock := { c.sendKeyBlock with transitBit := true } } := by
  have hillegal : ¬ (c.nodeType = .initiator ∧ c.recvKeyBlock.transitBit = true ∧
      (!c.transitBitSentFlag) = true) := fun h => by simp [ht] at h
  unfold aclHandShake
  rw [if_neg (by simp [hp]), if_neg hillegal, if_neg (by simp [hp]), if_pos hr]
  split
  · rw [if_neg (by simp [ht])]
  · rename_i hnode
    rw [hn] at hnode
    cases hnode

/-- A target that accepted its peer grants the transition. -/
theorem aclHandShake_grants (hp : c.phase = .authenticate) (hr : c.rmtState = .done)
    (hpass : c.rmtAuthStatus = .pass) (hn : c.nodeType = .target)
    (ht : c.recvKeyBlock.transitBit = true) :
    aclHandShake c = { c with
      sendKeyBlock := { c.sendKeyBlock with transitBit := true }
      phase := .done } := by
  have hnode : ¬ (c.nodeType = .initiator ∧ c.recvKeyBlock.transitBit = true ∧
      (!c.transitBitSentFlag) = true) := fun h => by simp [hn] at h
  unfold aclHandShake
  rw [if_neg (by simp [hp]), if_neg hnode, if_neg (by simp [hp]), if_pos (.inr hr)]
  split
  · rename_i hi
    rw [hn] at hi
    cases hi
  · rw [if_neg (by simp [hpass]), if_pos ht]
    exact aclNextPhase_done _ hp

/-- An initiator whose request was granted is done. -/
theorem aclHandShake_granted (hp : c.phase = .authenticate) (hr : c.rmtState = .done)
    (hn : c.nodeType = .initiator) (ht : c.recvKeyBlock.transitBit = true)
    (hsent : c.transitBitSentFlag = true) : aclHandShake c = { c with phase := .done } := by
  have hillegal : ¬ (c.nodeType = .initiator ∧ c.recvKeyBlock.transitBit = true ∧
      (!c.transitBitSentFlag) = true) := fun h => by simp [hsent] at h
  unfold aclHandShake
  rw [if_neg (by simp [hp]), if_neg hillegal, if_neg (by simp [hp]), if_pos (.inr hr)]
  split
  · rw [if_pos ht, if_neg (not_not.mpr hr)]
    exact aclNextPhase_done _ hp
  · rename_i hnode
    rw [hn] at hnode
    cases hnode

/-! ## Methods and algorithms -/

/-- CHAP is the first method offered, and both sides take it. -/
theorem aclChkAuthMethodKey_chap (valid : Bool)
    (hv : c.recvKeyBlock.keyVal .authMethod = some (methodOffer rmt))
    (hl : c.authMethodValidList = methodChoices valid) :
    aclChkAuthMethodKey c = { c with
      recvKeyBlock := c.recvKeyBlock.markProcessed .authMethod
      negotiatedAuthMethod := authMethodChap
      scratchKeyValue := aclChapOptionName } := by
  have hscan : ∀ s, scanItems (optionItem (methodChoices valid) aclAuthmethodOptnToText)
      (tokens (methodOffer rmt)) s = (some authMethodChap, aclChapOptionName) := by
    intro s
    cases valid <;> cases rmt <;> rfl
  unfold aclChkAuthMethodKey aclGetKeyVal
  simp only [hv, hl, hscan, Option.getD_some]

theorem recvEndNegotiate_target (hn : c.nodeType = .target)
    (hrole : c.authMethodValidNegRole = .responder) (hl : c.authMethodValidList = [authMethodChap])
    (hv : c.recvKeyBlock.keyVal .authMethod = some (methodOffer rmt)) :
    recvEndNegotiate c = ({ c with
      recvKeyBlock := c.recvKeyBlock.markProcessed .authMethod
      negotiatedAuthMethod := authMethodChap
      scratchKeyValue := aclChapOptionName
      sendKeyBlock := aclSetKeyValue c.sendKeyBlock .authMethod (some aclChapOptionName) }, true) := by
  have hchk := aclChkAuthMethodKey_chap c rmt true hv hl
  have hne : ¬ authMethodChap = authOptionNotPresent := by decide
  have hset : ∀ d : IscsiAcl, aclSetAuthMethodKey d [authMethodChap] = { d with
      scratchKeyValue := aclChapOptionName
      sendKeyBlock := aclSetKeyValue d.sendKeyBlock .authMethod (some aclChapOptionName) } :=
    fun _ => rfl
  simp only [recvEndNegotiate, hchk, hrole, hn, hne, false_and, if_false, hset]

theorem recvEndNegotiate_initiator (valid : Bool)
    (hrole : c.authMethodValidNegRole = .originator) (hp : c.phase = .negotiate)
    (hl : c.authMethodValidList = methodChoices valid)
    (hv : c.recvKeyBlock.keyVal .authMethod = some (methodOffer rmt)) :
    recvEndNegotiate c = ({ c with
      recvKeyBlock := c.recvKeyBlock.markProcessed .authMethod
      negotiatedAuthMethod := authMethodChap
      scratchKeyValue := aclChapOptionName
      phase := .authenticate
      localState := .sendAlg
      rmtState := .sendAlg }, false) := by
  have hchk := aclChkAuthMethodKey_chap c rmt valid hv hl
  have hne : ¬ authMethodChap = authOptionNotPresent := by decide
  simp only [recvEndNegotiate, hchk, hrole, hne, if_false]
  rw [aclNextPhase_chap _ (by exact hp) rfl]

/-- The first offered digest that this side knows is chosen. -/
theorem aclChkChapAlgKey_found (offered : List Int) (a : ChapAlg)
    (hv : c.recvKeyBlock.keyVal .chapAlg = some (algText offered))
    (hfind : offered.find? (fun o => o ∈ c.chapAlgList) = some a.code)
    (ho : ∀ o ∈ offered, algOption o) (hl : ∀ o ∈ c.chapAlgList, algOption o) :
    ∃ s, aclChkChapAlgKey c = { c with
      recvKeyBlock := c.recvKeyBlock.markProcessed .chapAlg
      scratchKeyValue := s
      negotiatedChapAlg := a.code
      chapChallengeLen := a.rspLen } := by
  have hne : offered ≠ [] := by
    rintro rfl
    simp at hfind
  have hscan := scan_algText offered c.chapAlgList hne ho hl c.scratchKeyValue
  have hcode : chapAlgOfCode a.code = some a := by cases a <;> decide
  unfold aclChkChapAlgKey aclGetKeyVal
  simp only [hv, hscan, hfind, hcode]
  exact ⟨_, rfl⟩

theorem aclSetChapAlgKey_options (options : List Int) (hne : options ≠ [])
    (h : ∀ o ∈ options, algOption o) (hlen : options.length ≤ authChapAlgMaxCount) :
    aclSetChapAlgKey c options = { c with
      scratchKeyValue := algText options
      sendKeyBlock := aclSetKeyValue c.sendKeyBlock .chapAlg (some (algText options)) } := by
  have hother : ∀ o : Int, ¬ algOption o → options ≠ [o] := by
    rintro o ho rfl
    exact ho (h o (by simp))
  have h1 := hother authOptionNotPresent (by unfold algOption; decide)
  have h2 := hother authOptionReject (by unfold algOption; decide)
  rw [aclSetChapAlgKey, if_neg hne, if_neg h1, if_neg h2]
  simp only [joinOptions_algText options hne h hlen, IscsiAcl.setSend]

/-- An initiator at the start offers its algorithms and goes on to the challenge. -/
theorem bothSides_offers (c : IscsiAcl)
    (hn : c.nodeType = .initiator) (hl : c.localState = .sendAlg) (hr : c.rmtState = .sendAlg)
    (hne : c.chapAlgList ≠ []) (h : ∀ o ∈ c.chapAlgList, algOption o)
    (hlen : c.chapAlgList.length ≤ authChapAlgMaxCount) :
    bothSides D env session c = { c with
      scratchKeyValue := algText c.chapAlgList
      sendKeyBlock := aclSetKeyValue c.sendKeyBlock .chapAlg (some (algText c.chapAlgList))
      localState := .recvAlg
      rmtState := .sendChallenge } := by
  have hset := aclSetChapAlgKey_options c c.chapAlgList hne h hlen
  simp only [bothSides, aclLocalAuth, hl, hn, if_true, hset]
  rw [if_pos (by decide)]
  simp only [aclRmtAuth, hr, if_true]

/-! ## Challenges and responses -/

/-- A challenge is drawn and put into the message. -/
theorem rmtSendChallenge_drawn (hrmt : c.authRmt = true) (id : UInt8)
    (bytes : Nat → UInt8) (hid : env.randId = some id) (hb : env.randChallenge = some bytes) :
    rmtSendChallenge env c = { c with
      sendChapIdentifier := id
      scratchKeyValue := decimal id.toNat
      sendChapChallenge := (List.range c.chapChallengeLen).map bytes
      sendKeyBlock := aclSetKeyValue
        (aclSetKeyValue c.sendKeyBlock .chapIdentifier (some (decimal id.toNat))) .chapChallenge
        (some [])
      rmtState := .recvRsp } := by
  simp only [rmtSendChallenge, hrmt, Bool.not_true, Bool.false_eq_true, if_false, hid, hb,
    IscsiAcl.setSend]

/-- The target's side of the second message: it confirms the digest and draws a challenge. -/
theorem bothSides_challenges (c : IscsiAcl)
    (offered : List Int) (a : ChapAlg) (id : UInt8) (bytes : Nat → UInt8)
    (hn : c.nodeType = .target) (hl : c.localState = .sendAlg) (hr : c.rmtState = .sendAlg)
    (hrmt : c.authRmt = true) (hv : c.recvKeyBlock.keyVal .chapAlg = some (algText offered))
    (hfind : offered.find? (fun o => o ∈ c.chapAlgList) = some a.code)
    (ho : ∀ o ∈ offered, algOption o) (hk : ∀ o ∈ c.chapAlgList, algOption o)
    (hid : env.randId = some id) (hb : env.randChallenge = some bytes) :
    ∃ s, bothSides D env session c = { c with
      recvKeyBlock := c.recvKeyBlock.markProcessed .chapAlg
      scratchKeyValue := s
      negotiatedChapAlg := a.code
      chapChallengeLen := a.rspLen
      sendChapIdentifier := id
      sendChapChallenge := challengeOf a bytes
      sendKeyBlock := aclSetKeyValue (aclSetKeyValue
        (aclSetKeyValue c.sendKeyBlock .chapAlg (some (algText [a.code]))) .chapIdentifier
          (some (decimal id.toNat))) .chapChallenge (some [])
      localState := .recvChallenge
      rmtState := .recvRsp } := by
  obtain ⟨s, hchk⟩ := aclChkChapAlgKey_found c offered a hv hfind ho hk
  obtain ⟨h1, h2, h3, h4⟩ := code_ne a
  have hlocal : aclLocalAuth D env c = { c with
      recvKeyBlock := c.recvKeyBlock.markProcessed .chapAlg
      scratchKeyValue := algText [a.code]
      negotiatedChapAlg := a.code
      chapChallengeLen := a.rspLen
      sendKeyBlock := aclSetKeyValue c.sendKeyBlock .chapAlg (some (algText [a.code]))
      localState := .recvChallenge } := by
    rw [aclLocalAuth, hl]
    dsimp only
    rw [if_neg (by rw [hn]; decide), localRecvAlg, localReadAlg, hchk]
    dsimp only
    rw [if_pos hn, aclSetChapAlgKey_options _ [a.code] (by simp) (by simpa using h4)
      (by simp [authChapAlgMaxCount]), localTakeAlg]
    dsimp only
    rw [if_neg h1, if_neg h2, if_neg (by rw [h3]; simp), if_pos hn]
  refine ⟨decimal id.toNat, ?_⟩
  simp only [bothSides, hlocal]
  rw [if_pos (by decide), aclRmtAuth]
  dsimp only
  rw [hr]
  dsimp only
  rw [if_neg (by rw [hn]; decide), rmtSendChallenge_drawn env _ (by exact hrmt) id bytes hid hb]
  rfl

/-- A challenge is answered with the response of the local secret. -/
theorem localRecvChallenge_answered (v : List UInt8)
    (hi : c.recvKeyBlock.keyVal .chapIdentifier = some (decimal id.toNat))
    (hv : c.recvKeyBlock.keyVal .chapChallenge = some v)
    (hch : c.recvChapChallenge = some challenge)
    (hown : c.nodeType = .target → challenge ≠ c.sendChapChallenge)
    (halg : c.negotiatedChapAlg = a.code) (hlen : c.chapChallengeLen = a.rspLen)
    (hpw : c.passwdPresent = true)
    (hsecret : 12 ≤ c.passwdData.length ∧ c.passwdData.length < authStrMaxLen)
    (hinit : env.rspInit = true) :
    localRecvChallenge D env c = { c with
      recvKeyBlock := (c.recvKeyBlock.markProcessed .chapIdentifier).markProcessed .chapChallenge
      scratchKeyValue := responseText D a id c.passwdData challenge
      sendKeyBlock := aclSetKeyValue
        (aclSetKeyValue c.sendKeyBlock .chapRsp (some (responseText D a id c.passwdData challenge)))
        .chapUsername (some c.username)
      localState := .done } := by
  have hid : id.toNat < 256 := id.toNat_lt
  have hnum := aclTextToNumber_decimal id.toNat hid
  have hrefl : ¬ (c.nodeType = .target ∧ challenge = c.sendChapChallenge) := fun h => hown h.1 h.2
  have hrsp : aclChapComputeRsp D c false id challenge env.rspInit =
      .ok (response D a id c.passwdData challenge) := by
    have h1 : ¬ authStrMaxLen < c.passwdData.length := by omega
    have h2 : ¬ c.passwdData.length < 12 := by omega
    simp [aclChapComputeRsp, hpw, halg, (code_ne a).2.2.1, hinit, h1, h2, response]
  have hcomp : ∀ b r, aclChapComputeRsp D { c with recvKeyBlock := b, recvChapChallenge := r } false id
      challenge env.rspInit = .ok (response D a id c.passwdData challenge) := fun _ _ => hrsp
  unfold localRecvChallenge aclGetKeyVal
  simp only [markProcessed_keyVal, hi, hv, reduceCtorEq, and_false, if_false, hnum, hch,
    hrefl, UInt8.ofNat_toNat, hcomp]
  rw [if_neg (by omega)]
  simp only [IscsiAcl.setSend, hlen, response_take]
  rfl

/-- A target that was not challenged is done. -/
theorem localRecvChallenge_unasked
    (hn : c.nodeType = .target) (hi : c.recvKeyBlock.keyVal .chapIdentifier = none)
    (hv : c.recvKeyBlock.keyVal .chapChallenge = none) :
    localRecvChallenge D env c = { c with
      recvKeyBlock := (c.recvKeyBlock.markProcessed .chapIdentifier).markProcessed .chapChallenge
      localState := .done } := by
  unfold localRecvChallenge aclGetKeyVal
  simp only [markProcessed_keyVal, hi, hv, hn, and_self, if_true]

structure Expects (session : Session) (name secret : List UInt8) : Prop where
  username : cstr session.usernameIn = name
  named : name ≠ []
  password : session.passwordIn = secret
  usable : secret ≠ [] ∧ secret.head? ≠ some 0

theorem ownResponse_false
    (secret : List UInt8) (halg : c.negotiatedChapAlg = a.code) (hlen : c.chapChallengeLen = a.rspLen)
    (hown : c.passwdPresent = true → response D a c.sendChapIdentifier c.passwdData c.sendChapChallenge
      ≠ response D a c.sendChapIdentifier secret c.sendChapChallenge) :
    ownResponse D env c (response D a c.sendChapIdentifier secret c.sendChapChallenge) = false := by
  unfold ownResponse
  split
  · split
    · rename_i mine hmine
      simp only [aclChapComputeRsp, halg, (code_ne a).2.2.1] at hmine
      have hpw : c.passwdPresent = true := by
        by_contra hno
        have hno' : c.passwdPresent = false := by simpa using hno
        simp [hno'] at hmine
      have hmine' : mine = response D a c.sendChapIdentifier c.passwdData c.sendChapChallenge := by
        cases hb : env.reflectInit with
        | false => simp [hpw, hb] at hmine
        | true =>
          simp only [hpw, Bool.not_true, Bool.false_eq_true, if_false, hb, Bool.false_and] at hmine
          split at hmine
          · cases hmine
          · cases hmine
            rfl
      rw [hmine', hlen, response_take, response_take]
      simpa using hown hpw
    · rfl
  · rfl

theorem recordVerdict_pass (h : c.authServerErrorFlag = false) :
    recordVerdict c .pass = { c with
      rmtAuthStatus := .pass
      authRspFlag := true
      dbgStatus := .authPass
      rmtState := .done } := by
  have hno : ¬ c.authServerErrorFlag = true := by simp [h]
  unfold recordVerdict
  dsimp only
  rw [if_neg hno, if_pos rfl]

/-- The expected response is accepted. -/
theorem aclRmtAuth_accepts (c : IscsiAcl) (a : ChapAlg) (name secret : List UInt8)
    (hstate : c.rmtState = .recvRsp)
    (hr : c.recvKeyBlock.keyVal .chapRsp =
      some (responseText D a c.sendChapIdentifier secret c.sendChapChallenge))
    (hn : c.recvKeyBlock.keyVal .chapUsername = some name)
    (hname : NulFree name ∧ name.length < authStrMaxLen) (hexp : Expects session name secret)
    (halg : c.negotiatedChapAlg = a.code) (hlen : c.chapChallengeLen = a.rspLen)
    (hown : c.passwdPresent = true → response D a c.sendChapIdentifier c.passwdData c.sendChapChallenge
      ≠ response D a c.sendChapIdentifier secret c.sendChapChallenge)
    (hserver : c.authServerErrorFlag = false) (hinit : env.verifyInit = true) :
    aclRmtAuth D env session c = { c with
      recvKeyBlock := (c.recvKeyBlock.markProcessed .chapRsp).markProcessed .chapUsername
      chapUsername := name
      rmtAuthStatus := .pass
      authRspFlag := true
      dbgStatus := .authPass
      rmtState := .done } := by
  have hc := cstr_of_nulFree name hname.1
  have hcopy : (strlcpy name authStrMaxLen).1 = name := by
    rw [strlcpy_fits name authStrMaxLen (by rw [hc]; exact hname.2), hc]
  have hfalse : ∀ b, ownResponse D env { c with recvKeyBlock := b }
      (response D a c.sendChapIdentifier secret c.sendChapChallenge) = false := fun b =>
    ownResponse_false D env { c with recvKeyBlock := b } a secret halg hlen hown
  have hpass : ∀ b, aclChapAuthRequest D { c with recvKeyBlock := b, chapUsername := name } session
      name c.sendChapIdentifier c.sendChapChallenge
      (response D a c.sendChapIdentifier secret c.sendChapChallenge) env.verifyInit = .pass := by
    intro b
    have hpos : ¬ secret.length < 1 := by
      have := List.length_pos_iff.mpr hexp.usable.1
      omega
    simp [aclChapAuthRequest, hexp.username, hexp.named, hc, hexp.password, hpos, hexp.usable.2, hlen,
      halg, (code_ne a).2.2.1, hinit, response, D.hash_length]
  rw [aclRmtAuth, hstate]
  unfold rmtRecvRsp aclGetKeyVal
  simp only [markProcessed_keyVal, hr, hn, aclTextToData_responseText, hfalse, Bool.false_eq_true,
    if_false, hcopy, hpass]
  exact recordVerdict_pass _ hserver

/-- The digest both sides use. -/
structure Agreed (c : IscsiAcl) (a : ChapAlg) : Prop where
  alg : c.negotiatedChapAlg = a.code
  len : c.chapChallengeLen = a.rspLen

/-- The initiator takes the digest and answers the challenge. -/
theorem aclLocalAuth_answers (hn : c.nodeType = .initiator) (hl : c.localState = .recvAlg)
    (hv : ∀ k, c.recvKeyBlock.keyVal k = challengeKeys a id k)
    (hch : c.recvChapChallenge = some challenge) (hmem : a.code ∈ c.chapAlgList)
    (hk : ∀ o ∈ c.chapAlgList, algOption o) (hpw : c.passwdPresent = true)
    (hsecret : 12 ≤ c.passwdData.length ∧ c.passwdData.length < authStrMaxLen)
    (hinit : env.rspInit = true) :
    aclLocalAuth D env c = { c with
      recvKeyBlock := ((c.recvKeyBlock.markProcessed .chapAlg).markProcessed
        .chapIdentifier).markProcessed .chapChallenge
      scratchKeyValue := responseText D a id c.passwdData challenge
      negotiatedChapAlg := a.code
      chapChallengeLen := a.rspLen
      sendKeyBlock := aclSetKeyValue
        (aclSetKeyValue c.sendKeyBlock .chapRsp (some (responseText D a id c.passwdData challenge)))
        .chapUsername (some c.username)
      localState := .done } := by
  obtain ⟨h1, h2, h3, h4⟩ := code_ne a
  obtain ⟨s, hchk⟩ := aclChkChapAlgKey_found c [a.code] a (hv .chapAlg) (by simp [hmem])
    (by simpa using h4) hk
  rw [aclLocalAuth, hl]
  dsimp only
  rw [localRecvAlg, localReadAlg, hchk]
  dsimp only
  rw [if_neg (by rw [hn]; decide), localTakeAlg]
  dsimp only
  rw [if_neg h1, if_neg h2, if_neg (by rw [h3]; simp), if_neg (by rw [hn]; decide),
    localRecvChallenge_answered D env _ a id challenge [] (by rw [markProcessed_keyVal]; exact hv _)
      (by rw [markProcessed_keyVal]; exact hv _) (by exact hch) (fun ht => by rw [hn] at ht; cases ht)
      rfl rfl (by exact hpw) (by exact hsecret) hinit]

/-- The state in which an initiator waits for the last message. -/
def answeredState (rmt : Bool) : RmtState := if rmt then .recvRsp else .done

/-- The initiator's rest of the second message: draw a challenge, or settle the matter. -/
theorem aclRmtAuth_replies (c : IscsiAcl) (a : ChapAlg)
    (id : UInt8) (bytes : Nat → UInt8) (hr : c.rmtState = .sendChallenge)
    (hlen : c.chapChallengeLen = a.rspLen) (hid : env.randId = some id)
    (hb : env.randChallenge = some bytes) (rsp : List UInt8)
    (hf : Filled c.sendKeyBlock (answerKeys rsp c.username) 325) :
    ∃ b i ch st s dbg, aclRmtAuth D env session c = { c with
        sendKeyBlock := b
        sendChapIdentifier := i
        sendChapChallenge := ch
        rmtAuthStatus := st
        scratchKeyValue := s
        dbgStatus := dbg
        rmtState := answeredState c.authRmt } ∧
      Filled b (replyKeys c.authRmt rsp c.username id) 330 ∧
      (c.authRmt = true → i = id ∧ ch = challengeOf a bytes) ∧ (c.authRmt = false → st = .pass) := by
  have heq : aclRmtAuth D env session c = rmtSendChallenge env c := by simp [aclRmtAuth, hr]
  rw [heq]
  by_cases hrmt : c.authRmt = true
  · have hst : answeredState c.authRmt = .recvRsp := by simp [answeredState, hrmt]
    have hkeys : replyKeys c.authRmt rsp c.username id =
        withChallenge (answerKeys rsp c.username) id := by simp [replyKeys, hrmt]
    refine ⟨aclSetKeyValue (aclSetKeyValue c.sendKeyBlock .chapIdentifier
      (some (decimal id.toNat))) .chapChallenge (some []), id, challengeOf a bytes, c.rmtAuthStatus,
      decimal id.toNat, c.dbgStatus, (rmtSendChallenge_drawn env c hrmt id bytes hid hb).trans ?_, ?_, fun _ => ⟨rfl, rfl⟩,
      fun h => by rw [hrmt] at h; cases h⟩
    · rw [hlen, hst]
      rfl
    · rw [hkeys]
      exact hf.challenge id rfl rfl (by omega)
  · have hst : answeredState c.authRmt = .done := by simp [answeredState, hrmt]
    have hkeys : replyKeys c.authRmt rsp c.username id = answerKeys rsp c.username := by
      simp [replyKeys, hrmt]
    refine ⟨c.sendKeyBlock, c.sendChapIdentifier, c.sendChapChallenge, .pass, c.scratchKeyValue,
      .authRmtFalse, ?_, ?_, fun h => absurd h hrmt, fun _ => rfl⟩
    · rw [rmtSendChallenge, if_pos (by simp [hrmt]), hst]
    · rw [hkeys]
      exact ⟨hf.holds, hf.length.trans (by omega)⟩

/-- What a target needs to answer a challenge of the initiator. -/
structure CanAnswer (c : IscsiAcl) (env : Env) (challenge : List UInt8) : Prop where
  fresh : challenge ≠ c.sendChapChallenge
  present : c.passwdPresent = true
  secret : 12 ≤ c.passwdData.length ∧ c.passwdData.length < authStrMaxLen
  init : env.rspInit = true

/-- The target answers the initiator's challenge, if there is one. -/
theorem aclLocalAuth_replied (rsp name : List UInt8) (hn : c.nodeType = .target)
    (hl : c.localState = .recvChallenge) (hsend : c.sendKeyBlock = aclInitKeyBlk)
    (hv : ∀ k, c.recvKeyBlock.keyVal k = replyKeys rmt rsp name id k) (hagreed : Agreed c a)
    (hname : NulFree c.username ∧ c.username.length < authStrMaxLen)
    (hch : rmt = true → c.recvChapChallenge = some challenge)
    (hcan : rmt = true → CanAnswer c env challenge) :
    ∃ b s, aclLocalAuth D env c = { c with
        recvKeyBlock := (c.recvKeyBlock.markProcessed .chapIdentifier).markProcessed .chapChallenge
        scratchKeyValue := s
        sendKeyBlock := b
        localState := .done } ∧
      Filled b (finalKeys rmt (responseText D a id c.passwdData challenge) c.username) 325 := by
  have heq : aclLocalAuth D env c = localRecvChallenge D env c := by simp [aclLocalAuth, hl]
  rw [heq]
  cases rmt with
  | true =>
    have hc := hcan rfl
    refine ⟨_, _, localRecvChallenge_answered D env c a id challenge [] (hv _) (hv _) (hch rfl)
      (fun _ => hc.fresh) hagreed.alg hagreed.len hc.present hc.secret hc.init, ?_⟩
    rw [hsend]
    exact Filled.answer _ _ (responseText_short D a id _ _) hname
  | false =>
    refine ⟨c.sendKeyBlock, c.scratchKeyValue,
      localRecvChallenge_unasked D env c hn (hv .chapIdentifier) (hv .chapChallenge), ?_⟩
    rw [hsend]
    exact ⟨(Filled.init false).holds, by simp [aclInitKeyBlk]⟩

end AuthPath
