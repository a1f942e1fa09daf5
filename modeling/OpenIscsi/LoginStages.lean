import OpenIscsi.LoginSecurity

/-!
# The stages a login goes through

The login loop of `iscsi_login` sends a request and processes the answer until
something fails or the full feature phase is reached. The response checker
compares the next stage of an answer with the current stage only, so a target
may skip the operational stage. Where it does not, the stage never runs ahead
of what was asked for.
-/

namespace LoginStages

open CString AuthText AuthKeys AuthClient AuthApi AuthExchange AuthSoundness AuthLive
open LoginKeys Login LoginFrame LoginSecurity

/-- One round of the loop: the buffer size and the answer, of class success. -/
structure Round where
  env : RspEnv
  maxDataLength : Nat
  rsp : LoginRsp
  success : rsp.statusClass = 0

/-- A stage change that was accepted: what the request announced and what was written. -/
structure Move where
  announced : Int
  written : Int
  deriving DecidableEq, Repr

def pairsText (pairs : List (List UInt8 × List UInt8)) : List UInt8 :=
  pairs.flatMap (fun p => cstr p.1 ++ 61 :: cstr p.2 ++ [0])

structure LoginProgress where
  session : LoginSession
  moves : List Move := []
  /-- Some request ended in the whole offer of its session. -/
  offered : Bool := false
  finished : Bool := false

/-- The round after a request that was made. -/
def answered (p : LoginProgress) (round : Round) (s : LoginSession) (req : LoginReq)
    (r : Processed) : LoginProgress :=
  { session := r.session
    moves := if r.status = .ok ∧ round.rsp.transit then
      p.moves ++ [⟨req.nsg, r.session.currentStage⟩] else p.moves
    offered := p.offered || (pairsText (opParamsOffer s)).isSuffixOf req.text
    finished := r.status != .ok || r.session.currentStage == fullFeaturePhase }

def loginRound (D : Digest) (p : LoginProgress) (round : Round) : LoginProgress :=
  if p.finished then p
  else
    match iscsiMakeLoginPdu round.maxDataLength p.session with
    | (s, none) => { p with session := s, finished := true }
    | (s, some req) =>
      answered p round s req (iscsiProcessLoginResponse D round.env round.maxDataLength s round.rsp)

def loginStart (usable : Int → Bool) (s : LoginSession) : LoginProgress :=
  { session := (iscsiLoginBegin usable s).1, finished := (iscsiLoginBegin usable s).2 != .ok }

def loginRounds (D : Digest) (usable : Int → Bool) (s : LoginSession) (rounds : List Round) :
    LoginProgress :=
  Runs.run (loginRound D) (loginStart usable s) rounds

/-- A discovery session with nothing to negotiate asks for the full feature phase at once. -/
def directLogin (s : LoginSession) : Prop :=
  s.type = .discovery ∧ s.hdrdgstEn = .none ∧ s.datadgstEn = .none ∧
    s.maxRecvDlength = defMaxRecvSegLen

def NamesAskedStage (p : LoginProgress) (round : Round) : Prop :=
  (iscsiMakeLoginPdu round.maxDataLength p.session).1.currentStage = securityNegotiationStage →
    round.rsp.transit = true →
    round.rsp.nextStage = opParmsNegotiationStage ∨
      directLogin (iscsiMakeLoginPdu round.maxDataLength p.session).1

/-! ## Requests -/

variable (D : Digest) {p : LoginProgress} (maxDataLength : Nat) (round : Round) (env : RspEnv)
  (s : LoginSession) (text : List UInt8) (r : LoginRsp)

theorem addTexts_text (pairs : List (List UInt8 × List UInt8))
    (text t : List UInt8) (h : addTexts maxDataLength pairs text = some t) :
    t = text ++ pairsText pairs := by
  induction pairs generalizing text with
  | nil =>
    cases h
    simp [pairsText]
  | cons p pairs ih =>
    simp only [addTexts] at h
    split at h
    · cases h
    · rename_i text' hadd
      rw [ih text' h]
      unfold iscsiAddText at hadd
      dsimp only at hadd
      split at hadd
      · cases hadd
      · cases hadd
        simp [pairsText]

structure OpRequest (s s' : LoginSession) (req : LoginReq) : Prop where
  stage : s'.currentStage = opParmsNegotiationStage
  nsg : req.nsg = fullFeaturePhase
  type : s'.type = s.type
  partialResponse : s'.partialResponse = s.partialResponse
  offer : s.partialResponse = false → (pairsText (opParamsOffer s')).isSuffixOf req.text = true

structure SecurityRequest (s s' : LoginSession) (req : LoginReq) : Prop where
  stage : s'.currentStage = securityNegotiationStage
  type : s'.type = s.type
  partialResponse : s'.partialResponse = s.partialResponse
  sent : ∃ c, s'.authClient = some c ∧ c.sendKeyBlock.transitBit = req.transit
  nsg : req.transit = true → req.nsg = securityNextStage s' true

theorem aclSendKeyVal_transitBit (c : IscsiAcl) (keyType : Int) (maxLength : Nat) :
    (aclSendKeyVal c keyType maxLength).1.sendKeyBlock.transitBit = c.sendKeyBlock.transitBit := by
  unfold aclSendKeyVal aclGetKeyVal
  split
  · rfl
  · split
    · rfl
    · split
      · rfl
      · dsimp only
        split
        · rfl
        · split
          · split <;> rfl
          · split <;> rfl

theorem enumAuthKeys_transitBit (keys : List KeyType)
    (r : IscsiAcl × List UInt8) :
    (keys.foldl (enumAuthKeys maxDataLength) r).1.sendKeyBlock.transitBit =
      r.1.sendKeyBlock.transitBit := by
  induction keys generalizing r with
  | nil => rfl
  | cons k keys ih =>
    rw [List.foldl_cons, ih]
    unfold enumAuthKeys
    dsimp only
    split <;> exact aclSendKeyVal_transitBit _ _ _

theorem stageRequest_cases (s' : LoginSession) (text : List UInt8)
    (req : LoginReq) (h : stageRequest maxDataLength s text = (s', some req)) :
    OpRequest s s' req ∨ SecurityRequest s s' req := by
  unfold stageRequest at h
  split at h
  · left
    simp only [fillOpParamsText, Prod.mk.injEq, Option.map_eq_some_iff] at h
    obtain ⟨rfl, t, ht, rfl⟩ := h
    refine ⟨rfl, rfl, rfl, rfl, fun hp => ?_⟩
    simp only [hp, Bool.not_false, if_true] at ht
    have htext := addTexts_text _ _ _ _ ht
    rw [List.isSuffixOf_iff_suffix]
    exact ⟨text, htext.symm⟩
  · split at h
    · rename_i hstage
      right
      split at h
      · cases h
      · rename_i client hc
        unfold fillSecurityParamsText at h
        dsimp only at h
        split at h
        · cases h
        · rename_i hok
          cases h
          have hbit : (aclSendTransitBit client).2.2 = client.sendKeyBlock.transitBit ∧
              (aclSendTransitBit client).1 = client := by
            unfold aclSendTransitBit at hok ⊢
            split at hok
            · exact absurd (by simp) hok
            · rename_i hsig
              rw [if_neg hsig]
              split at hok
              · exact absurd (by simp) hok
              · rename_i hsend
                rw [if_neg hsend]
                exact ⟨rfl, rfl⟩
          refine ⟨hstage, rfl, rfl, ⟨_, rfl, ?_⟩, fun ht => ?_⟩
          · rw [enumAuthKeys_transitBit, hbit.2]
            exact hbit.1.symm
          · have ht' : (aclSendTransitBit client).2.2 = true := ht
            simp only [ht', if_true]
            rfl
    · cases h

theorem firstRequest_frame :
    (firstRequest maxDataLength s).1.type = s.type ∧
      (firstRequest maxDataLength s).1.partialResponse = s.partialResponse := by
  unfold firstRequest
  split
  · exact ⟨rfl, rfl⟩
  · dsimp only
    split <;> exact ⟨rfl, rfl⟩

theorem firstRequest_stage
    (h : s.currentStage = initialLoginStage) :
    (firstRequest maxDataLength s).1.currentStage ≠ fullFeaturePhase := by
  unfold firstRequest
  split
  · rw [h]
    decide
  · dsimp only
    split
    · rw [h]
      decide
    · dsimp only
      split <;> decide

/-- A request that was made belongs to one of the two stages. -/
theorem iscsiMakeLoginPdu_cases (s' : LoginSession) (req : LoginReq)
    (h : iscsiMakeLoginPdu maxDataLength s = (s', some req)) :
    OpRequest s s' req ∨ SecurityRequest s s' req := by
  unfold iscsiMakeLoginPdu at h
  split at h
  · dsimp only at h
    split at h
    · cases h
    · obtain ⟨htype, hpart⟩ := firstRequest_frame maxDataLength s
      rcases stageRequest_cases _ _ _ _ _ h with hr | hr
      · exact .inl ⟨hr.stage, hr.nsg, hr.type.trans htype, hr.partialResponse.trans hpart,
          fun hp => hr.offer (hpart.trans hp)⟩
      · exact .inr ⟨hr.stage, hr.type.trans htype, hr.partialResponse.trans hpart, hr.sent, hr.nsg⟩
  · exact stageRequest_cases _ _ _ _ _ h

/-- Made or not, a request leaves the stage or settles the initial one. -/
theorem iscsiMakeLoginPdu_stage :
    (iscsiMakeLoginPdu maxDataLength s).1.type = s.type ∧
      (iscsiMakeLoginPdu maxDataLength s).1.partialResponse = s.partialResponse ∧
      ((iscsiMakeLoginPdu maxDataLength s).1.currentStage = s.currentStage ∨
        (s.currentStage = initialLoginStage ∧
          (iscsiMakeLoginPdu maxDataLength s).1.currentStage ≠ fullFeaturePhase)) := by
  have hstage : ∀ t text, (stageRequest maxDataLength t text).1.type = t.type ∧
      (stageRequest maxDataLength t text).1.partialResponse = t.partialResponse ∧
      (stageRequest maxDataLength t text).1.currentStage = t.currentStage := by
    intro t text
    unfold stageRequest
    split
    · rename_i hop
      exact ⟨rfl, rfl, hop.symm⟩
    · split
      · split
        · exact ⟨rfl, rfl, rfl⟩
        · unfold fillSecurityParamsText
          dsimp only
          split <;> exact ⟨rfl, rfl, rfl⟩
      · exact ⟨rfl, rfl, rfl⟩
  unfold iscsiMakeLoginPdu
  split
  · rename_i hinit
    obtain ⟨htype, hpart⟩ := firstRequest_frame maxDataLength s
    have hne := firstRequest_stage maxDataLength s hinit
    dsimp only
    split
    · exact ⟨htype, hpart, .inr ⟨hinit, hne⟩⟩
    · obtain ⟨h1, h2, h3⟩ := hstage (firstRequest maxDataLength s).1 _
      exact ⟨h1.trans htype, h2.trans hpart, .inr ⟨hinit, h3 ▸ hne⟩⟩
  · obtain ⟨h1, h2, h3⟩ := hstage s []
    exact ⟨h1, h2, .inl h3⟩

/-! ## Responses -/

theorem rspBegin_stage : stage (rspBegin s r).1 = stage s := by
  unfold rspBegin
  split
  · split
    · rfl
    · dsimp only
      split <;> rfl
  · rfl

theorem stageKeys_stage :
    stage (stageKeys env s text).1 = stage s := by
  unfold stageKeys
  split
  · cases hc : s.authClient with
    | none => rfl
    | some c =>
      obtain ⟨hf, -⟩ := getSecurityTextKeys_frame env s c hc text
      exact congrArg SecurityFrame.stage hf
  · split
    · exact (getOpParamsTextKeys_frame env s text).1
    · rfl

theorem rspVerdict_stage :
    stage (rspVerdict D env s).session = stage s := by
  unfold rspVerdict
  split
  · split
    · rfl
    · unfold checkSecurityStageStatus
      dsimp only
      split <;> rfl
  · rfl

/-- The stage after a response: moved by an accepted one, kept by any other. -/
theorem process_stage (maxDataLength : Nat) (s : LoginSession)
    (r : LoginRsp) :
    ((iscsiProcessLoginResponse D env maxDataLength s r).status = .ok ∧ rspCheck s r = .ok ∧
      stage (iscsiProcessLoginResponse D env maxDataLength s r).session =
        { stage s with
          currentStage := if r.transit then r.nextStage else s.currentStage
          partialResponse := !r.transit }) ∨
    ((iscsiProcessLoginResponse D env maxDataLength s r).status ≠ .ok ∧
      stage (iscsiProcessLoginResponse D env maxDataLength s r).session = stage s) := by
  have hbegin := rspBegin_stage s r
  have hscan : stage (scanText env (r.text.length + 1) (rspBegin s r).1 r.text).1 = stage s :=
    scanText_invariant env (fun t => stage t = stage s)
      (fun t text ht => (stageKeys_stage env t text).trans ht) _ _ r.text hbegin
  have hverdict := (rspVerdict_stage D env _).trans hscan
  unfold iscsiProcessLoginResponse
  split
  · exact .inr ⟨by simp, rfl⟩
  split
  · rename_i hcheck
    exact .inr ⟨hcheck, rfl⟩
  rename_i hcheck
  dsimp only
  split
  · rename_i hb
    exact .inr ⟨hb, hbegin⟩
  split
  · rename_i hk
    exact .inr ⟨hk, hscan⟩
  split
  · rename_i hv
    exact .inr ⟨hv, hverdict⟩
  · rename_i hv
    refine .inl ⟨not_not.mp hv, not_not.mp hcheck, ?_⟩
    rw [← hverdict]
    generalize (rspVerdict D env (scanText env (r.text.length + 1) (rspBegin s r).1 r.text).1).session
      = t at hverdict ⊢
    have hcur : t.currentStage = s.currentStage := congrArg LoginFrame.Stage.currentStage hverdict
    unfold rspRecord
    cases r.transit with
    | true => rfl
    | false =>
      simp only [Bool.false_eq_true, if_false, Bool.not_false]
      simp [stage, hcur]

theorem LoginRsp.nextStage_le : r.nextStage ≤ fullFeaturePhase := by
  have h : (r.flags &&& 0x03).toNat ≤ 3 := by
    rw [UInt8.toNat_and]
    exact Nat.and_le_right
  unfold LoginRsp.nextStage fullFeaturePhase
  omega

theorem LoginRsp.nextStage_nonneg : 0 ≤ r.nextStage := Int.natCast_nonneg _

/-- An accepted answer of class success with the transit bit goes forward. -/
theorem rspCheck_forward (hclass : r.statusClass = 0)
    (h : rspCheck s r = .ok) (ht : r.transit = true) : s.currentStage < r.nextStage := by
  by_contra hle
  have hle' : r.nextStage ≤ s.currentStage := not_lt.mp hle
  unfold rspCheck at h
  rw [if_pos hclass] at h
  split at h
  · cases h
  · split at h
    · cases h
    · rw [if_pos ⟨ht, hle'⟩] at h
      cases h

/-! ## The loop -/

/-- What every round keeps: no move ran ahead, and a normal session that is past
its first operational round has made its offer. -/
structure Orderly (p : LoginProgress) : Prop where
  sane : SaneSession p.session
  moves : ∀ m ∈ p.moves, m.written ≤ m.announced
  fresh : p.session.currentStage = initialLoginStage → p.session.partialResponse = false
  offered : p.session.type = .normal →
    (p.session.currentStage = fullFeaturePhase ∨
      (p.session.currentStage = opParmsNegotiationStage ∧ p.session.partialResponse = true)) →
    p.offered = true

theorem loginStart_orderly (usable : Int → Bool) (s : LoginSession) :
    Orderly (loginStart usable s) := by
  have hstage : (iscsiLoginBegin usable s).1.currentStage = initialLoginStage ∧
      (iscsiLoginBegin usable s).1.partialResponse = false := by
    unfold iscsiLoginBegin
    dsimp only
    split <;> exact ⟨rfl, rfl⟩
  refine ⟨iscsiLoginBegin_sane usable s, by simp [loginStart], fun _ => hstage.2, fun _ h => ?_⟩
  simp only [loginStart, hstage.1] at h
  rcases h with h | ⟨h, -⟩ <;> exact absurd h (by decide)

/-- A request that could not be made ends the loop without harm. -/
theorem Orderly.refused (h : Orderly p) (maxDataLength : Nat) :
    Orderly { p with session := (iscsiMakeLoginPdu maxDataLength p.session).1, finished := true } := by
  obtain ⟨htype, hpart, hcur⟩ := iscsiMakeLoginPdu_stage maxDataLength p.session
  refine ⟨iscsiMakeLoginPdu_sane _ _ h.sane, h.moves, fun hinit => ?_, fun hnormal hpast => ?_⟩
  · rw [hpart]
    rcases hcur with hcur | ⟨hcur, -⟩
    · exact h.fresh (hcur.symm.trans hinit)
    · exact h.fresh hcur
  · refine h.offered (htype.symm.trans hnormal) ?_
    simp only [hpart] at hpast
    rcases hcur with hcur | ⟨hcur, hne⟩
    · rwa [hcur] at hpast
    · rcases hpast with hpast | ⟨-, hpast⟩
      · exact absurd hpast hne
      · rw [h.fresh hcur] at hpast
        cases hpast

/-- An operational request announces the last stage and comes with the offer or after it. -/
theorem Orderly.opRound (h : Orderly p) (round : Round)
    (s : LoginSession) (req : LoginReq) (hsane : SaneSession s)
    (hcur : s.currentStage = p.session.currentStage ∨ p.session.currentStage = initialLoginStage)
    (hreq : OpRequest p.session s req) :
    Orderly (answered p round s req
      (iscsiProcessLoginResponse D round.env round.maxDataLength s round.rsp)) := by
  have hstage := process_stage D round.env round.maxDataLength s round.rsp
  have hnot : s.currentStage ≠ securityNegotiationStage := by rw [hreq.stage]; decide
  have hother := process_other D round.env round.maxDataLength s round.rsp hnot
  generalize iscsiProcessLoginResponse D round.env round.maxDataLength s round.rsp = r
    at hstage hother ⊢
  have hoffer : p.session.type = .normal →
      (p.offered || (pairsText (opParamsOffer s)).isSuffixOf req.text) = true := by
    intro hnormal
    cases hpart : p.session.partialResponse with
    | false => simp [hreq.offer hpart]
    | true =>
      rcases hcur with hcur | hcur
      · simp [h.offered hnormal (.inr ⟨hcur.symm.trans hreq.stage, hpart⟩)]
      · rw [h.fresh hcur] at hpart
        cases hpart
  have hrtype : r.session.type = p.session.type := by
    rcases hstage with ⟨-, -, hst⟩ | ⟨-, hst⟩ <;>
      exact (congrArg LoginFrame.Stage.type hst).trans hreq.type
  have hrcur : r.session.currentStage ≠ initialLoginStage ∧
      r.session.currentStage ≤ fullFeaturePhase := by
    have hnn := LoginRsp.nextStage_nonneg round.rsp
    have hle := LoginRsp.nextStage_le round.rsp
    have hop : s.currentStage = 1 := hreq.stage
    have hinit : initialLoginStage = -1 := rfl
    have hfull : fullFeaturePhase = 3 := rfl
    rcases hstage with ⟨-, -, hst⟩ | ⟨-, hst⟩
    · have hc : r.session.currentStage =
          if round.rsp.transit then round.rsp.nextStage else s.currentStage :=
        congrArg LoginFrame.Stage.currentStage hst
      rw [hc]
      split <;> omega
    · have hc : r.session.currentStage = s.currentStage :=
        congrArg LoginFrame.Stage.currentStage hst
      omega
  refine ⟨?_, ?_, fun hinit => absurd hinit hrcur.1, fun hnormal _ => hoffer (hrtype.symm.trans hnormal)⟩
  · intro c hc
    exact hsane c (hother.1 ▸ hc)
  · intro m hm
    unfold answered at hm
    dsimp only at hm
    split at hm
    · rcases List.mem_append.mp hm with hm | hm
      · exact h.moves m hm
      · rw [List.mem_singleton.mp hm, hreq.nsg]
        exact hrcur.2
    · exact h.moves m hm

theorem securityNextStage_true :
    (directLogin s ∧ securityNextStage s true = fullFeaturePhase) ∨
      (¬ directLogin s ∧ securityNextStage s true = opParmsNegotiationStage) := by
  unfold securityNextStage
  rw [if_pos rfl]
  split
  · rename_i htype
    split
    · rename_i hdef
      refine .inr ⟨fun hd => ?_, rfl⟩
      rcases hdef with h | h | h
      · exact h hd.2.1
      · exact h hd.2.2.1
      · exact h hd.2.2.2
    · rename_i hdef
      simp only [ne_eq, not_or, not_not] at hdef
      exact .inl ⟨⟨htype, hdef⟩, rfl⟩
  · rename_i htype
    refine .inr ⟨fun hd => ?_, rfl⟩
    rw [hd.1] at htype
    cases htype

/-- The move out of the security stage stays within what was asked for exactly
when the answer names the operational stage or the login is a direct one. -/
theorem security_move_iff (s₀ s : LoginSession) (req : LoginReq)
    (hsane : SaneSession s) (hreq : SecurityRequest s₀ s req)
    (hok : (iscsiProcessLoginResponse D round.env round.maxDataLength s round.rsp).status = .ok)
    (ht : round.rsp.transit = true) :
    (iscsiProcessLoginResponse D round.env round.maxDataLength s round.rsp).session.currentStage =
        round.rsp.nextStage ∧
      (round.rsp.nextStage ≤ req.nsg ↔
        round.rsp.nextStage = opParmsNegotiationStage ∨ directLogin s) := by
  have hstep := process_security D round.env round.maxDataLength s round.rsp hsane hreq.stage
  have hstage := process_stage D round.env round.maxDataLength s round.rsp
  generalize iscsiProcessLoginResponse D round.env round.maxDataLength s round.rsp = r
    at hstep hstage hok ⊢
  rcases hstage with ⟨-, hcheck, hst⟩ | ⟨hne, -⟩
  case inr => exact absurd hok hne
  have hcur : r.session.currentStage = round.rsp.nextStage := by
    have hc : r.session.currentStage =
        if round.rsp.transit then round.rsp.nextStage else s.currentStage :=
      congrArg LoginFrame.Stage.currentStage hst
    rw [hc, if_pos ht]
  have hfwd : 0 < round.rsp.nextStage := by
    have hf := rspCheck_forward s round.rsp round.success hcheck ht
    rwa [hreq.stage] at hf
  have hleft : r.session.currentStage ≠ securityNegotiationStage := by
    rw [hcur]
    exact ne_of_gt hfwd
  obtain ⟨c, hc, hbit⟩ := hstep.sent (hstep.left hleft)
  obtain ⟨c', hc', hsent⟩ := hreq.sent
  rw [hc] at hc'
  cases hc'
  have hnsg := hreq.nsg (hsent.symm.trans hbit)
  have hle := LoginRsp.nextStage_le round.rsp
  refine ⟨hcur, ?_⟩
  rw [hnsg]
  have hop : opParmsNegotiationStage = 1 := rfl
  rcases securityNextStage_true s with ⟨hdirect, heq⟩ | ⟨hnot, heq⟩
  · rw [heq]
    exact ⟨fun _ => .inr hdirect, fun _ => hle⟩
  · rw [heq, hop]
    refine ⟨fun h1 => .inl (by omega), fun h1 => ?_⟩
    rcases h1 with h1 | h1
    · omega
    · exact absurd h1 hnot

/-- A security request is answered within what it asked for. -/
theorem Orderly.securityRound (h : Orderly p) (round : Round)
    (s : LoginSession) (req : LoginReq) (hsane : SaneSession s)
    (hreq : SecurityRequest p.session s req)
    (hasked : round.rsp.transit = true →
      round.rsp.nextStage = opParmsNegotiationStage ∨ directLogin s) :
    Orderly (answered p round s req
      (iscsiProcessLoginResponse D round.env round.maxDataLength s round.rsp)) := by
  have hstep := process_security D round.env round.maxDataLength s round.rsp hsane hreq.stage
  have hstage := process_stage D round.env round.maxDataLength s round.rsp
  have hmove := security_move_iff D round p.session s req hsane hreq
  generalize iscsiProcessLoginResponse D round.env round.maxDataLength s round.rsp = r
    at hstep hstage hmove ⊢
  have hsec : s.currentStage = 0 := hreq.stage
  have hstay : r.status ≠ .ok ∨ round.rsp.transit = false → r.session.currentStage = 0 := by
    intro hor
    rcases hstage with ⟨hok, -, hst⟩ | ⟨-, hst⟩
    · have hc : r.session.currentStage =
          if round.rsp.transit then round.rsp.nextStage else s.currentStage :=
        congrArg LoginFrame.Stage.currentStage hst
      rcases hor with hne | ht
      · exact absurd hok hne
      · rw [hc, ht]
        exact hsec
    · exact (congrArg LoginFrame.Stage.currentStage hst).trans hsec
  have hrtype : r.session.type = s.type := by
    rcases hstage with ⟨-, -, hst⟩ | ⟨-, hst⟩ <;> exact congrArg LoginFrame.Stage.type hst
  by_cases hacc : r.status = .ok ∧ round.rsp.transit = true
  · obtain ⟨hok, ht⟩ := hacc
    obtain ⟨hcur, hiff⟩ := hmove hok ht
    have hfresh : r.session.partialResponse = false := by
      rcases hstage with ⟨-, -, hst⟩ | ⟨hne, -⟩
      · have hp : r.session.partialResponse = !round.rsp.transit :=
          congrArg LoginFrame.Stage.partialResponse hst
        rw [hp, ht]
        rfl
      · exact absurd hok hne
    refine ⟨hstep.sane, ?_, fun _ => hfresh, fun hnormal hpast => ?_⟩
    · intro m hm
      simp only [answered, hok, ht, and_self, if_true] at hm
      rcases List.mem_append.mp hm with hm | hm
      · exact h.moves m hm
      · rw [List.mem_singleton.mp hm, hcur]
        exact hiff.mpr (hasked ht)
    · exfalso
      have hnormal' : s.type = .normal := hrtype.symm.trans hnormal
      have hop : round.rsp.nextStage = opParmsNegotiationStage := by
        rcases hasked ht with hop | hdirect
        · exact hop
        · rw [hdirect.1] at hnormal'
          cases hnormal'
      simp only [answered, hfresh, hcur, hop] at hpast
      rcases hpast with hpast | ⟨-, hpast⟩
      · exact absurd hpast (by decide)
      · cases hpast
  · have hzero : r.session.currentStage = 0 := by
      refine hstay ?_
      by_cases hok : r.status = .ok
      · right
        cases ht : round.rsp.transit with
        | false => rfl
        | true => exact absurd ⟨hok, ht⟩ hacc
      · exact .inl hok
    refine ⟨hstep.sane, ?_, fun hinit => ?_, fun _ hpast => ?_⟩
    · simp only [answered, hacc, if_false]
      exact h.moves
    · simp only [answered, hzero] at hinit
      exact absurd hinit (by decide)
    · simp only [answered, hzero] at hpast
      rcases hpast with hpast | ⟨hpast, -⟩ <;> exact absurd hpast (by decide)

theorem loginRound_orderly (p : LoginProgress) (round : Round) (h : Orderly p)
    (hasked : NamesAskedStage p round) : Orderly (loginRound D p round) := by
  unfold loginRound
  split
  · exact h
  have hsane := iscsiMakeLoginPdu_sane round.maxDataLength p.session h.sane
  obtain ⟨-, -, hcur⟩ := iscsiMakeLoginPdu_stage round.maxDataLength p.session
  have hrefused := h.refused round.maxDataLength
  unfold NamesAskedStage at hasked
  split
  · rename_i s hmake
    rw [hmake] at hrefused
    exact hrefused
  · rename_i s req hmake
    rw [hmake] at hsane hcur hasked
    rcases iscsiMakeLoginPdu_cases _ _ _ _ hmake with hreq | hreq
    · refine h.opRound D round s req hsane ?_ hreq
      rcases hcur with hcur | ⟨hcur, -⟩
      · exact .inl hcur
      · exact .inr hcur
    · exact h.securityRound D round s req hsane hreq (hasked hreq.stage)

/-- While the target names the stage that was asked for, the connection never
runs ahead, and a normal session reaches the full feature phase only after its offer. -/
theorem stage_follows_request (D : Digest) (usable : Int → Bool) (s : LoginSession)
    (rounds : List Round)
    (hasked : Runs.Guarded (loginRound D) NamesAskedStage (loginStart usable s) rounds) :
    (∀ m ∈ (loginRounds D usable s rounds).moves, m.written ≤ m.announced) ∧
      ((loginRounds D usable s rounds).session.type = .normal →
        (loginRounds D usable s rounds).session.currentStage = fullFeaturePhase →
        (loginRounds D usable s rounds).offered = true) := by
  have h : Orderly (loginRounds D usable s rounds) :=
    Runs.Guarded.run_invariant (fun p round hp hg => loginRound_orderly D p round hp hg)
      (loginStart_orderly usable s) hasked
  exact ⟨h.moves, fun hnormal hfull => h.offered hnormal (.inl hfull)⟩

/-- The target accepts no authentication and goes on to the operational stage. -/
def acceptRound : Round := ⟨quietEnv, 8192, noneAccepted, rfl⟩

/-- The same answer, but straight to the full feature phase. -/
def skipRound : Round :=
  ⟨quietEnv, 8192, { flags := 0x83, text := ascii "AuthMethod=None" ++ [0, 0] }, rfl⟩

/-- The last answer of the operational stage. -/
def finalRound : Round :=
  ⟨quietEnv, 8192, { flags := 0x87, text := ascii "MaxBurstLength=262144" ++ [0, 0] }, rfl⟩

theorem stage_follows_request_open :
    (loginRounds secretByteDigest (fun _ => true) openSession [acceptRound, finalRound]).moves =
        [⟨1, 1⟩, ⟨3, 3⟩] ∧
      (∀ m ∈ (loginRounds secretByteDigest (fun _ => true) openSession
        [acceptRound, finalRound]).moves, m.written ≤ m.announced) ∧
      (loginRounds secretByteDigest (fun _ => true) openSession
        [acceptRound, finalRound]).offered = true :=
  have h := stage_follows_request secretByteDigest (fun _ => true) openSession
    [acceptRound, finalRound]
    ⟨fun _ _ => .inl (by decide), fun hs => absurd hs (by decide +kernel), trivial⟩
  ⟨by decide +kernel, h.1, h.2 (by decide +kernel) (by decide +kernel)⟩

/-- A target that names the full feature phase in the security stage is believed:
a normal session that asked for the operational stage is logged in without its offer. -/
theorem stage_skips_offer :
    (loginRounds secretByteDigest (fun _ => true) openSession [skipRound]).moves = [⟨1, 3⟩] ∧
      (loginRounds secretByteDigest (fun _ => true) openSession [skipRound]).session.type =
        .normal ∧
      (loginRounds secretByteDigest (fun _ => true) openSession [skipRound]).session.currentStage =
        fullFeaturePhase ∧
      (loginRounds secretByteDigest (fun _ => true) openSession [skipRound]).offered = false := by
  decide +kernel

end LoginStages
