import OpenIscsi.LoginFrame
import OpenIscsi.AuthLive

/-!
# Leaving the security stage

Requests and responses in any order: the connection leaves the security stage
only by a response whose `acl_recv_end` passed, since a response with the
transit bit never lets the client continue.
-/

namespace LoginSecurity

open CString AuthText AuthKeys AuthClient AuthApi AuthFrame AuthExchange AuthSoundness AuthLive
open LoginKeys Login LoginFrame

/-- One call of the request builder or of the response checker. -/
inductive LoginEvent where
  | request (maxDataLength : Nat)
  | response (env : RspEnv) (maxDataLength : Nat) (r : LoginRsp)

def LoginEvent.apply (D : Digest) (s : LoginSession) : LoginEvent → LoginSession
  | .request maxDataLength => (iscsiMakeLoginPdu maxDataLength s).1
  | .response env maxDataLength r => (iscsiProcessLoginResponse D env maxDataLength s r).session

/-- A client that is finished or live. -/
def Sane (c : IscsiAcl) : Prop := c.signature ≠ aclSignature ∨ Live c

def SaneSession (s : LoginSession) : Prop := ∀ c, s.authClient = some c → Sane c

theorem Sane.of_held {c d : IscsiAcl} (h : Sane c) (hh : held d = held c)
    (hlive : Live c → Live d) : Sane d := by
  rcases h with h | h
  · left
    have hs : d.signature = c.signature := congrArg (fun f => f.setup.signature) hh
    rw [hs]
    exact h
  · exact .inr (hlive h)

theorem SaneSession.of_some {s : LoginSession} {c : IscsiAcl} (hc : s.authClient = some c)
    (h : Sane c) : SaneSession s := by
  intro d hd
  rw [hc] at hd
  cases hd
  exact h

/-! ## The start of a login -/

theorem applyCalls_ready (calls : List SetCall) (c d : IscsiAcl) (hc : Ready c)
    (h : applyCalls calls c = some d) : Ready d := by
  induction calls generalizing c with
  | nil =>
    cases h
    exact hc
  | cons call calls ih =>
    simp only [applyCalls] at h
    split at h
    · cases h
    · exact ih _ (SetCall.apply_ready c call hc) h

variable (D : Digest) (env : RspEnv) (maxDataLength : Nat) (s : LoginSession) (r : LoginRsp)
  (c : IscsiAcl) (usable : Int → Bool)

theorem checkForAuthentication_sane (s : LoginSession) :
    Sane (checkForAuthentication usable s).1 := by
  unfold checkForAuthentication
  dsimp only
  split
  · exact .inr (Ready.live aclInit_ready)
  · split
    · rename_i c hc
      exact .inr (Ready.live (applyCalls_ready _ _ _ aclInit_ready hc))
    · exact .inl (by decide)

theorem iscsiLoginBegin_sane (s : LoginSession) :
    SaneSession (iscsiLoginBegin usable s).1 := by
  unfold iscsiLoginBegin
  dsimp only
  split
  · rename_i hnone
    intro c hc
    have hc' : s.authClient = some c := hc
    rw [hnone] at hc'
    cases hc'
  · exact .of_some rfl (checkForAuthentication_sane usable _)

/-! ## Requests -/

theorem enumAuthKeys_sane (keys : List KeyType) (r : IscsiAcl × List UInt8)
    (h : Sane r.1) : Sane (keys.foldl (enumAuthKeys maxDataLength) r).1 := by
  induction keys generalizing r with
  | nil => exact h
  | cons k keys ih =>
    refine ih _ ?_
    have hsent : ∀ n : Nat, Sane (aclSendKeyVal r.1 k.code n).1 := by
      intro n
      have hs := aclSendKeyVal_sent r.1 k.code n
      refine h.of_held ?_ (fun hl => hl.sent hs)
      cases hs <;> assumption
    unfold enumAuthKeys
    dsimp only
    split
    · exact hsent _
    · exact hsent _

theorem stageRequest_sane (text : List UInt8)
    (h : SaneSession s) : SaneSession (stageRequest maxDataLength s text).1 := by
  unfold stageRequest
  split
  · exact h
  · split
    · split
      · exact h
      · rename_i client hc
        have hsane := h client hc
        have hbit := aclSendTransitBit_sent client
        have hsane' : Sane (aclSendTransitBit client).1 :=
          hsane.of_held (by cases hbit <;> assumption) (fun hl => hl.sent hbit)
        unfold fillSecurityParamsText
        dsimp only
        split
        · exact .of_some rfl hsane'
        · exact .of_some rfl (enumAuthKeys_sane maxDataLength keyTypes _ hsane')
    · exact h

theorem firstRequest_authClient :
    (firstRequest maxDataLength s).1.authClient = s.authClient := by
  unfold firstRequest
  split
  · rfl
  · dsimp only
    split <;> rfl

theorem iscsiMakeLoginPdu_sane (h : SaneSession s) :
    SaneSession (iscsiMakeLoginPdu maxDataLength s).1 := by
  have hfirst : SaneSession (firstRequest maxDataLength s).1 := by
    intro c hc
    rw [firstRequest_authClient] at hc
    exact h c hc
  unfold iscsiMakeLoginPdu
  split
  · dsimp only
    split
    · exact hfirst
    · exact stageRequest_sane maxDataLength _ _ hfirst
  · exact stageRequest_sane maxDataLength s [] h

/-- A request never moves a connection out of the security stage. -/
theorem iscsiMakeLoginPdu_security
    (h : s.currentStage = securityNegotiationStage) :
    (iscsiMakeLoginPdu maxDataLength s).1.currentStage = securityNegotiationStage := by
  unfold iscsiMakeLoginPdu stageRequest
  rw [if_neg (by rw [h]; decide), if_neg (by rw [h]; decide), if_pos h]
  split
  · exact h
  · unfold fillSecurityParamsText
    dsimp only
    split <;> exact h

/-! ## Responses -/

/-- In the security stage, reading a message: the client holds the transit bit of
the response and remembers whether its own was sent. -/
structure Armed (transit sent : Bool) (s : LoginSession) (c : IscsiAcl) : Prop where
  stage : s.currentStage = securityNegotiationStage
  client : s.authClient = some c
  live : Live c
  phase : c.phase = .negotiate ∨ c.phase = .authenticate ∨ c.phase = .error
  transit : c.recvKeyBlock.transitBit = transit
  sent : c.transitBitSentFlag = sent

theorem KeyRead.armed {transit sent : Bool} {s s' : LoginSession} {c d : IscsiAcl}
    (h : Armed transit sent s c) (hread : KeyRead c d) (hf : securityFrame s' = securityFrame s)
    (hd : s'.authClient = some d) : Armed transit sent s' d := by
  have hstage : s'.currentStage = securityNegotiationStage :=
    (congrArg (fun f => f.stage.currentStage) hf).trans h.stage
  rcases hread with rfl | ⟨n, raw, rfl⟩
  · exact ⟨hstage, hd, h.live, h.phase, h.transit, h.sent⟩
  · have hturn := aclRecvKeyValue_turn c n raw
    simp only [turn, Prod.mk.injEq] at hturn
    refine ⟨hstage, hd, h.live.recvKeyValue n raw, ?_, hturn.1.trans h.transit,
      hturn.2.2.1.trans h.sent⟩
    rcases aclRecvKeyValue_phase c n raw with hp | hp
    · rw [hp]
      exact h.phase
    · exact .inr (.inr hp)

theorem stageKeys_armed (transit sent : Bool) (s : LoginSession)
    (text : List UInt8) (h : ∃ c, Armed transit sent s c) :
    ∃ c, Armed transit sent (stageKeys env s text).1 c := by
  obtain ⟨c, hc⟩ := h
  unfold stageKeys
  rw [if_pos hc.stage, hc.client]
  obtain ⟨hf, d, hd, hread⟩ := getSecurityTextKeys_frame env s c hc.client text
  exact ⟨d, KeyRead.armed hc hread hf hd⟩

theorem aclRecvTransitBit_accepted (value : Bool)
    (h : (aclRecvTransitBit c value).2 = .noError) :
    (aclRecvTransitBit c value).1 =
        { c with recvKeyBlock := { c.recvKeyBlock with transitBit := value } } ∧ reading c := by
  unfold aclRecvTransitBit at h ⊢
  split at h
  · cases h
  · rename_i hs
    rw [if_neg hs]
    split at h
    · cases h
    · rename_i hp
      rw [if_neg hp]
      refine ⟨rfl, ?_⟩
      by_contra hnot
      exact hp (not_or.mp hnot)

theorem aclRecvBegin_signature (h : (aclRecvBegin c).2 = .noError) :
    c.signature = aclSignature := by
  by_contra hs
  rw [aclRecvBegin, if_pos hs] at h
  cases h

/-- The begin of a response that is not refused arms the client. -/
theorem rspBegin_armed
    (hc : s.authClient = some c) (h : Sane c)
    (hstage : s.currentStage = securityNegotiationStage) (hok : (rspBegin s r).2 = .ok) :
    ∃ d, Armed r.transit c.sendKeyBlock.transitBit (rspBegin s r).1 d := by
  unfold rspBegin at hok ⊢
  rw [if_pos hstage, hc] at hok ⊢
  dsimp only at hok ⊢
  by_cases hb : (aclRecvBegin c).2 = .noError
  case neg =>
    rw [if_pos hb] at hok
    cases hok
  rw [if_neg (not_not.mpr hb)] at hok ⊢
  have ht : (aclRecvTransitBit (aclRecvBegin c).1 r.transit).2 = .noError := by
    by_contra ht
    simp only [if_pos ht] at hok
    cases hok
  have hsig := aclRecvBegin_signature c hb
  have hlive : Live c := h.resolve_left (not_not.mpr hsig)
  obtain ⟨heq, hread⟩ := aclRecvTransitBit_accepted _ _ ht
  refine ⟨_, hstage, rfl, hlive.recvBegin.recvTransitBit r.transit, ?_, ?_, ?_⟩
  · rw [heq]
    rcases hread with hp | hp
    · exact .inl hp
    · exact .inr (.inl hp)
  · rw [heq]
  · rw [heq]
    rcases aclRecvBegin_begun c hsig with hbegun | hnot
    · exact hbegun.sent
    · exact absurd hread hnot

theorem rspBegin_sane (h : SaneSession s) :
    SaneSession (rspBegin s r).1 := by
  unfold rspBegin
  split
  · split
    · exact h
    · rename_i c hc
      have hb : Sane (aclRecvBegin c).1 :=
        (h c hc).of_held (aclRecvBegin_held c) (fun hl => hl.recvBegin)
      dsimp only
      split
      · exact .of_some rfl hb
      · exact .of_some rfl (hb.of_held (aclRecvTransitBit_held _ _) (fun hl => hl.recvTransitBit _))
  · exact h

theorem Armed.sane {transit sent : Bool} {s : LoginSession} {c : IscsiAcl}
    (h : Armed transit sent s c) : SaneSession s :=
  .of_some h.client (.inr h.live)

/-- The verdict on an armed client: passed after both transit bits, continued
without that of the response, or failed. -/
theorem rspVerdict_armed (transit sent : Bool) (s : LoginSession)
    (c : IscsiAcl) (h : Armed transit sent s c) :
    SaneSession (rspVerdict D env s).session ∧
      (rspVerdict D env s).session.currentStage = securityNegotiationStage ∧
      (transit = true → (rspVerdict D env s).recvEnd ≠ some .cont) ∧
      ((rspVerdict D env s).recvEnd = some .pass → sent = true) ∧
      ((rspVerdict D env s).status = .ok →
        (rspVerdict D env s).recvEnd = some .cont ∨ (rspVerdict D env s).recvEnd = some .pass) := by
  obtain ⟨hlive, hcont⟩ := h.live.recvEnd D env.crypto s.credentials
  have hpass := h.live.recvEnd_pass D env.crypto s.credentials h.phase
  rw [h.transit] at hcont
  rw [h.sent] at hpass
  unfold rspVerdict
  rw [if_pos h.stage, h.client]
  unfold checkSecurityStageStatus
  dsimp only
  split
  · rename_i hor
    refine ⟨.of_some rfl (.inr hlive), h.stage, fun htr hend => ?_, fun hend => ?_, fun _ => ?_⟩
    · exact hcont htr (Option.some.inj hend)
    · exact hpass (Option.some.inj hend)
    · rcases hor with h' | h' <;> simp [h']
  · refine ⟨.of_some rfl (.inr hlive.getDbgStatus), h.stage, fun htr hend => ?_, fun hend => ?_,
      fun hok => ?_⟩
    · exact hcont htr (Option.some.inj hend)
    · exact hpass (Option.some.inj hend)
    · cases hok

theorem rspRecord_authClient :
    (rspRecord s r).authClient = s.authClient := by
  unfold rspRecord
  dsimp only
  split <;> rfl

/-- Without the transit bit the stage stays. -/
theorem rspRecord_stage :
    (rspRecord s r).currentStage = if r.transit then r.nextStage else s.currentStage := by
  unfold rspRecord
  dsimp only
  cases r.transit <;> rfl

structure SecurityStep (s : LoginSession) (transit : Bool) (p : Processed) : Prop where
  sane : SaneSession p.session
  sent : p.recvEnd = some .pass → ∃ c, s.authClient = some c ∧ c.sendKeyBlock.transitBit = true
  noCont : transit = true → p.recvEnd ≠ some .cont
  left : p.session.currentStage ≠ securityNegotiationStage → p.recvEnd = some .pass

theorem process_security (h : SaneSession s) (hstage : s.currentStage = securityNegotiationStage) :
    SecurityStep s r.transit (iscsiProcessLoginResponse D env maxDataLength s r) := by
  have hbegin : (rspBegin s r).1.currentStage = securityNegotiationStage := by
    unfold rspBegin
    rw [if_pos hstage]
    split
    · exact hstage
    · dsimp only
      split <;> exact hstage
  unfold iscsiProcessLoginResponse
  split
  · exact ⟨h, by simp, fun _ => by simp, fun hne => absurd hstage hne⟩
  split
  · exact ⟨h, by simp, fun _ => by simp, fun hne => absurd hstage hne⟩
  dsimp only
  split
  · exact ⟨rspBegin_sane s r h, by simp, fun _ => by simp, fun hne => absurd hbegin hne⟩
  rename_i hok
  have hok' : (rspBegin s r).2 = .ok := not_not.mp hok
  cases hc : s.authClient with
  | none => simp [rspBegin, hstage, hc] at hok'
  | some c =>
    have harmed := scanText_invariant env
      (fun s' => ∃ d, Armed r.transit c.sendKeyBlock.transitBit s' d)
      (fun s' text h' => stageKeys_armed env _ _ s' text h') (r.text.length + 1) _ r.text
      (rspBegin_armed s r c hc (h c hc) hstage hok')
    obtain ⟨d, hd⟩ := harmed
    split
    · exact ⟨hd.sane, by simp, fun _ => by simp, fun hne => absurd hd.stage hne⟩
    obtain ⟨hsane, hst, hnc, hsent, hverdict⟩ := rspVerdict_armed D env _ _ _ d hd
    split
    · exact ⟨hsane, fun hend => ⟨c, hc, hsent hend⟩, hnc, fun hne => absurd hst hne⟩
    rename_i hv
    refine ⟨?_, fun hend => ⟨c, hc, hsent hend⟩, hnc, fun hne => ?_⟩
    · intro e he
      rw [rspRecord_authClient] at he
      exact hsane e he
    · rw [rspRecord_stage] at hne
      cases ht : r.transit with
      | false =>
        rw [ht, if_neg (by simp)] at hne
        exact absurd hst hne
      | true =>
        rcases hverdict (not_not.mp hv) with hend | hend
        · exact absurd hend (hnc ht)
        · exact hend

/-- Outside of the security stage the client is not touched. -/
theorem process_other (hstage : s.currentStage ≠ securityNegotiationStage) :
    (iscsiProcessLoginResponse D env maxDataLength s r).session.authClient = s.authClient ∧
      (iscsiProcessLoginResponse D env maxDataLength s r).recvEnd = none := by
  have hbegin : rspBegin s r = (s, .ok) := by rw [rspBegin, if_neg hstage]
  have hscan := scanText_invariant env
    (fun t => t.authClient = s.authClient ∧ t.currentStage ≠ securityNegotiationStage)
    (fun t text ht => by
      unfold stageKeys
      rw [if_neg ht.2]
      split
      · obtain ⟨hf, hc⟩ := getOpParamsTextKeys_frame env t text
        have hcur : (getOpParamsTextKeys env t text).1.currentStage = t.currentStage :=
          congrArg LoginFrame.Stage.currentStage hf
        exact ⟨hc.trans ht.1, hcur ▸ ht.2⟩
      · exact ht) (r.text.length + 1) s r.text ⟨rfl, hstage⟩
  unfold iscsiProcessLoginResponse
  rw [hbegin]
  split
  · exact ⟨rfl, rfl⟩
  split
  · exact ⟨rfl, rfl⟩
  dsimp only
  rw [if_neg (by simp)]
  split
  · exact ⟨hscan.1, rfl⟩
  · have hv : rspVerdict D env (scanText env (r.text.length + 1) s r.text).1 =
        ⟨(scanText env (r.text.length + 1) s r.text).1, .ok, none⟩ := by
      rw [rspVerdict, if_neg hscan.2]
    rw [hv, if_neg (by simp)]
    exact ⟨(rspRecord_authClient _ r).trans hscan.1, rfl⟩

/-! ## Every run -/

theorem LoginEvent.apply_sane (e : LoginEvent) (h : SaneSession s) :
    SaneSession (e.apply D s) := by
  cases e with
  | request maxDataLength => exact iscsiMakeLoginPdu_sane maxDataLength s h
  | response env maxDataLength r =>
    by_cases hstage : s.currentStage = securityNegotiationStage
    · exact (process_security D env maxDataLength s r h hstage).sane
    · intro c hc
      simp only [LoginEvent.apply] at hc
      rw [(process_other D env maxDataLength s r hstage).1] at hc
      exact h c hc

def loginRun (D : Digest) (usable : Int → Bool) (s : LoginSession) (events : List LoginEvent) :
    LoginSession :=
  Runs.run (fun s e => LoginEvent.apply D s e) (iscsiLoginBegin usable s).1 events

theorem loginRun_sane (s : LoginSession)
    (events : List LoginEvent) : SaneSession (loginRun D usable s events) :=
  Runs.run_invariant _ SaneSession (fun s e h => LoginEvent.apply_sane D s e h) _
    (iscsiLoginBegin_sane usable s) events

/-- The security stage is left only by a response whose `acl_recv_end` passed,
and no response with the transit bit makes `acl_recv_end` continue. -/
theorem leaves_security_by_pass (D : Digest) (usable : Int → Bool) (s : LoginSession)
    (events : List LoginEvent) :
    (∀ e : LoginEvent,
      (loginRun D usable s events).currentStage = securityNegotiationStage →
      (loginRun D usable s (events ++ [e])).currentStage ≠ securityNegotiationStage →
      ∃ env maxDataLength r, e = .response env maxDataLength r ∧
        (iscsiProcessLoginResponse D env maxDataLength (loginRun D usable s events) r).recvEnd =
          some .pass) ∧
    ∀ env maxDataLength r, r.transit = true →
      (iscsiProcessLoginResponse D env maxDataLength (loginRun D usable s events) r).recvEnd ≠
        some .cont := by
  have hsane := loginRun_sane D usable s events
  refine ⟨fun e hstage hleft => ?_, fun env maxDataLength r ht => ?_⟩
  · have hsnoc : loginRun D usable s (events ++ [e]) =
        LoginEvent.apply D (loginRun D usable s events) e :=
      Runs.run_snoc (fun s e => LoginEvent.apply D s e) _ events e
    rw [hsnoc] at hleft
    cases e with
    | request maxDataLength =>
      exact absurd (iscsiMakeLoginPdu_security maxDataLength _ hstage) hleft
    | response env maxDataLength r =>
      exact ⟨env, maxDataLength, r, rfl,
        (process_security D env maxDataLength _ r hsane hstage).left hleft⟩
  · by_cases hstage : (loginRun D usable s events).currentStage = securityNegotiationStage
    · exact (process_security D env maxDataLength _ r hsane hstage).noCont ht
    · rw [(process_other D env maxDataLength _ r hstage).2]
      simp

/-- A session without secrets, and the answer of a target that asks for none. -/
def openSession : LoginSession :=
  { authClient := some {}, initiatorName := ascii "iqn.initiator", targetName := ascii "iqn.target",
    chapAlgs := [5] }

def quietEnv : RspEnv := ⟨⟨true, true, true, none, none⟩, fun _ _ => false⟩

def noneAccepted : LoginRsp := { flags := 0x81, text := ascii "AuthMethod=None" ++ [0, 0] }

theorem leaves_security_by_pass_open :
    (loginRun secretByteDigest (fun _ => true) openSession [.request 8192]).currentStage =
        securityNegotiationStage ∧
      (loginRun secretByteDigest (fun _ => true) openSession
        ([.request 8192] ++ [.response quietEnv 8192 noneAccepted])).currentStage =
        opParmsNegotiationStage ∧
      (∃ env maxDataLength r,
        LoginEvent.response quietEnv 8192 noneAccepted = .response env maxDataLength r ∧
        (iscsiProcessLoginResponse secretByteDigest env maxDataLength
          (loginRun secretByteDigest (fun _ => true) openSession [.request 8192]) r).recvEnd =
            some .pass) ∧
      (iscsiProcessLoginResponse secretByteDigest quietEnv 8192
        (loginRun secretByteDigest (fun _ => true) openSession [.request 8192]) noneAccepted).recvEnd ≠
          some .cont :=
  ⟨by decide +kernel, by decide +kernel,
    (leaves_security_by_pass _ _ _ _).1 _ (by decide +kernel) (by decide +kernel),
    (leaves_security_by_pass _ _ _ _).2 _ _ _ (by decide)⟩

end LoginSecurity
