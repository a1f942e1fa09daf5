import OpenIscsi.AuthRounds
import OpenIscsi.LoginLimits

/-!
# The login of a discovery session

`iscsi_create_session` of `discovery.c` with the loop of `iscsi_login`. It runs
until it needs an answer: a connection attempt, a call of the kernel, a send, or
a poll of the socket. Each of its back edges is a function here, named after its
label; only one of them takes a retry.
-/

namespace DiscoveryLogin

open CString AuthText AuthKeys AuthClient AuthApi LoginKeys Login LoginFrame LoginStages
open LoginLimits AuthRounds AuthSoundness LoginSecurity

def iscsiErrInternal : Int := 9
def iscsiErrPduTimeout : Int := 11
def iscsiErrFatalLogin : Int := 19
def iscsiErrLoginAuthFailed : Int := 24

/-! ## The state -/

/-- The discovery record, the transport and the libraries. -/
structure Config where
  reopenMax : Int
  /-- `CAP_TEXT_NEGO` and `CAP_LOGIN_OFFLOAD` of the transport. -/
  textNego : Bool
  loginOffload : Bool
  conf : OperationalConf
  template : Template
  digest : Digest
  usable : Int → Bool
  dataLen : Nat

inductive Phase where
  /-- `iscsi_create_leading_conn` -/
  | connecting
  /-- `iscsi_session_set_params` -/
  | settingParams
  /-- `iscsi_io_send_pdu` -/
  | sending
  | polling
  /-- `iscsi_session_set_neg_params` and `start_conn` -/
  | starting
  /-- `iscsi_wait_for_login` -/
  | waiting
  | returned (rc : Int)
  deriving DecidableEq, Repr

structure Discovery where
  phase : Phase
  reopenCnt : Int
  session : LoginSession
  failbackSaddr : List UInt8 × List UInt8
  loginFailures : Nat := 0
  /-- History: connection attempts, login PDUs, and answers taken. -/
  attempts : Nat := 0
  pdus : Nat := 0
  answers : Nat := 0

inductive Poll where
  | expired
  /-- `poll` returns nothing a moment before the timer is seen to expire. -/
  | early
  | failed | hup | nval | err
  /-- `iscsi_io_recv_pdu`: an event for another connection, or an error. -/
  | again
  | ioError
  /-- A PDU that is no login response. -/
  | draft8 | opcode
  | response (env : RspEnv) (rsp : LoginRsp) (statusDetail : UInt8)

inductive Answer where
  | connected (rc : Int)
  | paramsSet (rc : Int)
  | sent (ok : Bool)
  | polled (p : Poll)
  | started (ok : Bool)
  | loggedIn (rc : Int)

/-! ## The labels -/

def giveUp (d : Discovery) (rc : Int) : Discovery := { d with phase := .returned rc }

def portalGroupTagUnknown : Int := -1

def redirectReconnect (d : Discovery) : Discovery :=
  { d with
    phase := .connecting
    session := { d.session with portalGroupTag := portalGroupTagUnknown }
    attempts := d.attempts + 1 }

/-- `reconnect`: a retry is taken, if there is one. -/
def reconnect (d : Discovery) : Discovery :=
  let d := { d with reopenCnt := d.reopenCnt - 1 }
  if d.reopenCnt < 0 then giveUp d iscsiErrPduTimeout else redirectReconnect d

/-- `set_address`: a temporary redirect is undone. -/
def setAddress (d : Discovery) : Discovery :=
  reconnect { d with session := { d.session with saddr := d.failbackSaddr } }

def failAgain (d : Discovery) : Discovery := { d with loginFailures := d.loginFailures + 1 }

def checkClass (cfg : Config) (d : Discovery) (statusClass statusDetail : UInt8) : Discovery :=
  if statusClass = 0 then
    let d := { d with loginFailures := 0 }
    if cfg.textNego then { d with phase := .starting } else giveUp d 0
  else if statusClass = 1 then
    if statusDetail = 1 then redirectReconnect d
    else if statusDetail = 2 then redirectReconnect { d with failbackSaddr := d.session.saddr }
    else setAddress d
  else if statusClass = 2 then
    giveUp d (if statusDetail = 1 ∨ statusDetail = 2 then iscsiErrLoginAuthFailed
      else iscsiErrFatalLogin)
  else reconnect (failAgain d)

def loginDone (cfg : Config) (d : Discovery) (status : LoginStatus)
    (statusClass statusDetail : UInt8) : Discovery :=
  match status with
  | .ok | .redirect => checkClass cfg d statusClass statusDetail
  | .ioError | .redirectionFailed => setAddress (failAgain d)
  | _ => giveUp d iscsiErrFatalLogin

/-! ## The login -/

def request (cfg : Config) (d : Discovery) : Discovery :=
  match iscsiMakeLoginPdu cfg.dataLen d.session with
  | (s, none) => loginDone cfg { d with session := s } .failed 0 0
  | (s, some _) => { d with session := s, phase := .sending, pdus := d.pdus + 1 }

/-- The condition of the loop of `iscsi_login`. -/
def nextRound (cfg : Config) (d : Discovery) : Discovery :=
  if d.session.currentStage = fullFeaturePhase then loginDone cfg d .ok 0 0 else request cfg d

def beginLogin (cfg : Config) (d : Discovery) : Discovery :=
  match iscsiLoginBegin cfg.usable { d.session with expStatsn := 0 } with
  | (s, .ok) => request cfg { d with session := s }
  | (s, e) => loginDone cfg { d with session := s } e 0 0

def afterParams (cfg : Config) (d : Discovery) : Discovery :=
  if cfg.loginOffload then { d with phase := .starting } else beginLogin cfg d

def takeResponse (cfg : Config) (d : Discovery) (env : RspEnv) (rsp : LoginRsp)
    (statusDetail : UInt8) : Discovery :=
  let p := iscsiProcessLoginResponse cfg.digest env cfg.dataLen d.session rsp
  if rsp.statusClass = 0 then
    if p.status = .ok then nextRound cfg { d with session := p.session }
    else loginDone cfg { d with session := p.session } p.status rsp.statusClass statusDetail
  else if rsp.statusClass = 1 then
    loginDone cfg { d with session := p.session } .redirect rsp.statusClass statusDetail
  else loginDone cfg d .ok rsp.statusClass statusDetail

def polled (cfg : Config) (d : Discovery) : Poll → Discovery
  | .expired => loginDone cfg d .failed 0 0
  -- nothing was read, and the loop goes round all the same
  | .early => nextRound cfg d
  | .failed => loginDone cfg d .failed 0 0
  | .hup => loginDone cfg d .failed 0 0
  | .nval => loginDone cfg d .ioError 0 0
  | .err => loginDone cfg d .ioError 0 0
  | .again => d
  | .ioError => loginDone cfg d .ioError 0 0
  | .draft8 => loginDone cfg d .versionMismatch 0 0
  | .opcode => loginDone cfg d .invalidPdu 0 0
  | .response env rsp statusDetail => takeResponse cfg d env rsp statusDetail

/-! ## Runs -/

def Poll.isAgain : Poll → Bool
  | .again => true
  | _ => false

def counted (d : Discovery) : Discovery := { d with answers := d.answers + 1 }

/-- One answer; an answer to another question is none. -/
def step (cfg : Config) (d : Discovery) (a : Answer) : Discovery :=
  match d.phase, a with
  | .connecting, .connected rc =>
    let d := counted d
    if rc ≠ 0 then reconnect (failAgain d)
    else
      let d := { d with
        session := iscsiCopyOperationalParams d.session cfg.conf cfg.template }
      if cfg.textNego then { d with phase := .settingParams } else afterParams cfg d
  | .settingParams, .paramsSet rc =>
    if rc ≠ 0 then giveUp (counted d) iscsiErrInternal else afterParams cfg (counted d)
  | .sending, .sent ok =>
    if ok then { counted d with phase := .polling } else loginDone cfg (counted d) .ioError 0 0
  | .polling, .polled p => if p.isAgain then d else polled cfg (counted d) p
  | .starting, .started ok =>
    if !ok then giveUp (counted d) iscsiErrInternal
    else if cfg.loginOffload then { counted d with phase := .waiting }
    else giveUp (counted d) 0
  | .waiting, .loggedIn rc => giveUp (counted d) rc
  | _, _ => d

/-- `iscsi_create_session`, for a session with so many attempts left. -/
def start (session : LoginSession) (left : Int) : Discovery :=
  setAddress
    { phase := .connecting
      reopenCnt := left
      session := session
      failbackSaddr := session.saddr }

def run (cfg : Config) (session : LoginSession) (left : Int) (answers : List Answer) : Discovery :=
  Runs.run (step cfg) (start session left) answers

/-! ## What a session can still ask for -/

/-- The requests one login can still make, the next one included. -/
def requestsLeft (s : LoginSession) : Nat :=
  if s.currentStage = initialLoginStage ∨ s.currentStage = securityNegotiationStage then
    authRecvEndMaxCount + 1 - rounds s + 1
  else if s.currentStage = opParmsNegotiationStage then 1 else 0

/-- The requests still to come once the current one is made. -/
def requestsAfter (s : LoginSession) : Nat :=
  if s.currentStage = securityNegotiationStage then authRecvEndMaxCount + 1 - rounds s else 0

variable {cfg : Config} {limit : Nat} {s : LoginSession}

theorem requestsLeft_of_passed (h : opParmsNegotiationStage < s.currentStage) :
    requestsLeft s = 0 := by
  have hop : opParmsNegotiationStage = 1 := rfl
  have hinit : initialLoginStage = -1 := rfl
  have hsec : securityNegotiationStage = 0 := rfl
  rw [requestsLeft, if_neg (by omega), if_neg (by omega)]

theorem requestsLeft_le (s : LoginSession) :
    requestsLeft s ≤ authRecvEndMaxCount + 1 - rounds s + 1 := by
  unfold requestsLeft
  repeat' split
  all_goals omega

/-- A login is in one of its two stages. -/
def Negotiating (s : LoginSession) : Prop :=
  s.currentStage = opParmsNegotiationStage ∨ s.currentStage = securityNegotiationStage

/-- Making a request uses it up. -/
theorem requestsAfter_made {dataLen : Nat} {s' : LoginSession} {req : LoginReq}
    (h : iscsiMakeLoginPdu dataLen s = (s', some req)) :
    requestsAfter s' + 1 ≤ requestsLeft s ∧ Negotiating s' := by
  obtain ⟨hrounds, hstage, hin⟩ := iscsiMakeLoginPdu_made h
  refine ⟨?_, hin⟩
  have hafter : requestsAfter s' ≤ authRecvEndMaxCount + 1 - rounds s := by
    unfold requestsAfter
    rw [hrounds]
    split <;> omega
  rcases hstage with hinit | hsame
  · rw [requestsLeft, if_pos (.inl hinit)]
    omega
  · rcases hin with hop | hsec
    · have hnone : requestsAfter s' = 0 := by
        rw [requestsAfter, if_neg]
        rw [hop]
        decide
      have hone : requestsLeft s = 1 := by
        rw [requestsLeft, ← hsame, hop, if_neg (by decide), if_pos rfl]
      omega
    · rw [hsame] at hsec
      rw [requestsLeft, if_pos (.inr hsec)]
      omega

/-- A response that is accepted uses up a request, unless it stays in the operational stage. -/
theorem requestsLeft_processed {D : Digest} {env : RspEnv} {dataLen : Nat} {rsp : LoginRsp}
    (hok : (iscsiProcessLoginResponse D env dataLen s rsp).status = .ok)
    (hclass : rsp.statusClass = 0) (hstage : Negotiating s)
    (hmoves : s.currentStage = opParmsNegotiationStage → rsp.transit = true) :
    requestsLeft (iscsiProcessLoginResponse D env dataLen s rsp).session ≤ requestsAfter s := by
  rcases hstage with hop | hsec
  · rcases process_stage D env dataLen s rsp with ⟨_, hcheck, hnext⟩ | ⟨hbad, _⟩
    · have hcur := congrArg Stage.currentStage hnext
      dsimp only [stage] at hcur
      have htransit := hmoves hop
      rw [if_pos htransit] at hcur
      have hforward : ¬ rsp.nextStage ≤ s.currentStage := by
        intro hle
        unfold rspCheck at hcheck
        rw [if_pos hclass] at hcheck
        split at hcheck
        · cases hcheck
        · split at hcheck
          · cases hcheck
          · rw [if_pos ⟨htransit, hle⟩] at hcheck
            cases hcheck
      rw [requestsLeft_of_passed (by omega)]
      exact Nat.zero_le _
    · exact absurd hok hbad
  · obtain ⟨hle, hcount⟩ := process_rounds hsec hok
    have hleft := requestsLeft_le (iscsiProcessLoginResponse D env dataLen s rsp).session
    rw [hcount] at hleft
    rw [requestsAfter, if_pos hsec]
    omega

/-! ## The budget -/

def attemptPdus : Nat := authRecvEndMaxCount + 2
def attemptAnswers : Nat := 2 * attemptPdus + 4

/-- What is used, what the retries can use and what this attempt can still use. -/
structure Within (limit : Nat) (d : Discovery) (pdus answers : Nat) : Prop where
  attempts : d.attempts + d.reopenCnt.toNat ≤ limit
  pdus : d.pdus + attemptPdus * d.reopenCnt.toNat + pdus ≤ attemptPdus * limit
  answers : d.answers + attemptAnswers * d.reopenCnt.toNat + answers ≤ attemptAnswers * limit

variable {p q : Nat} {d : Discovery}

theorem Within.mono {p' q' : Nat} (h : Within limit d p q) (hp : p' ≤ p) (hq : q' ≤ q) :
    Within limit d p' q' := by
  obtain ⟨ha, hpdus, hanswers⟩ := h
  exact ⟨ha, by omega, by omega⟩

/-- Only the counters are in the budget. -/
theorem Within.congr {e : Discovery} (h : Within limit d p q)
    (ha : e.attempts = d.attempts) (hp : e.pdus = d.pdus) (hq : e.answers = d.answers)
    (hr : e.reopenCnt = d.reopenCnt) : Within limit e p q := by
  obtain ⟨hattempts, hpdus, hanswers⟩ := h
  constructor
  · rwa [ha, hr]
  · rwa [hp, hr]
  · rwa [hq, hr]

theorem Within.counted (h : Within limit d p (q + 1)) :
    Within limit (counted d) p q := by
  obtain ⟨hattempts, hpdus, hanswers⟩ := h
  refine ⟨hattempts, hpdus, ?_⟩
  dsimp only [DiscoveryLogin.counted]
  omega

def pdusLeft (d : Discovery) : Nat :=
  match d.phase with
  | .connecting => attemptPdus
  | .settingParams => attemptPdus
  | .sending => requestsAfter d.session
  | .polling => requestsAfter d.session
  | .starting => 0
  | .waiting => 0
  | .returned _ => 0

def answersLeft (d : Discovery) : Nat :=
  match d.phase with
  | .connecting => attemptAnswers
  | .settingParams => 2 * attemptPdus + 3
  | .sending => 2 * requestsAfter d.session + 4
  | .polling => 2 * requestsAfter d.session + 3
  | .starting => 2
  | .waiting => 1
  | .returned _ => 0

/-- The invariant of a run. -/
structure Bounded (limit : Nat) (d : Discovery) : Prop where
  within : Within limit d (pdusLeft d) (answersLeft d)
  stage : d.phase = .sending ∨ d.phase = .polling → Negotiating d.session

theorem Within.giveUp (h : Within limit d p q) (rc : Int) :
    Bounded limit (giveUp d rc) where
  within := (h.mono (Nat.zero_le _) (Nat.zero_le _)).congr rfl rfl rfl rfl
  stage := by
    rintro (hphase | hphase)
    · cases hphase
    · cases hphase

theorem Within.toStarting (h : Within limit d p q)
    (hq : 2 ≤ q) : Bounded limit { d with phase := .starting } where
  within := (h.mono (Nat.zero_le _) hq).congr rfl rfl rfl rfl
  stage := by
    rintro (hphase | hphase)
    · cases hphase
    · cases hphase

/-- A retry pays for the next attempt. -/
theorem Within.reconnect (h : Within limit d p q) :
    Bounded limit (reconnect d) := by
  obtain ⟨hattempts, hpdus, hanswers⟩ := h
  unfold DiscoveryLogin.reconnect
  dsimp only
  split
  · apply Within.giveUp (p := 0) (q := 0)
    have hzero : (d.reopenCnt - 1).toNat = 0 := by omega
    constructor
    · dsimp only
      omega
    · dsimp only
      rw [hzero]
      omega
    · dsimp only
      rw [hzero]
      omega
  · have hone : d.reopenCnt.toNat = (d.reopenCnt - 1).toNat + 1 := by omega
    rw [hone] at hattempts hpdus hanswers
    refine ⟨⟨?_, ?_, ?_⟩, ?_⟩
    · dsimp only [redirectReconnect]
      omega
    · dsimp only [redirectReconnect, pdusLeft]
      rw [Nat.mul_add] at hpdus
      omega
    · dsimp only [redirectReconnect, answersLeft]
      rw [Nat.mul_add] at hanswers
      omega
    · rintro (hphase | hphase)
      · cases hphase
      · cases hphase

theorem Within.setAddress (h : Within limit d p q) :
    Bounded limit (setAddress d) :=
  Within.reconnect (h.congr rfl rfl rfl rfl)

theorem Within.failAgain (h : Within limit d p q) :
    Within limit (failAgain d) p q :=
  h.congr rfl rfl rfl rfl

/-- A redirect that the code follows without taking a retry. -/
def Followed (statusClass statusDetail : UInt8) : Prop :=
  statusClass = 1 ∧ (statusDetail = 1 ∨ statusDetail = 2)

theorem Within.checkClass
    {statusClass statusDetail : UInt8} (h : Within limit d p q) (hq : 2 ≤ q)
    (hstay : ¬ Followed statusClass statusDetail) :
    Bounded limit (checkClass cfg d statusClass statusDetail) := by
  unfold DiscoveryLogin.checkClass
  dsimp only
  split
  · split
    · exact (h.congr (e := { d with loginFailures := 0 }) rfl rfl rfl rfl).toStarting hq
    · exact (h.congr (e := { d with loginFailures := 0 }) rfl rfl rfl rfl).giveUp 0
  · split
    · rename_i hclass
      rw [if_neg (fun hdetail => hstay ⟨hclass, .inl hdetail⟩),
        if_neg (fun hdetail => hstay ⟨hclass, .inr hdetail⟩)]
      exact h.setAddress
    · split
      · exact h.giveUp _
      · exact h.failAgain.reconnect

theorem Within.loginDone
    {statusClass statusDetail : UInt8} (h : Within limit d p q) (hq : 2 ≤ q)
    (hstay : ¬ Followed statusClass statusDetail) (status : LoginStatus) :
    Bounded limit (loginDone cfg d status statusClass statusDetail) := by
  unfold DiscoveryLogin.loginDone
  cases status with
  | ok => exact h.checkClass hq hstay
  | redirect => exact h.checkClass hq hstay
  | ioError => exact h.failAgain.setAddress
  | redirectionFailed => exact h.failAgain.setAddress
  | failed => exact h.giveUp _
  | versionMismatch => exact h.giveUp _
  | negotiationFailed => exact h.giveUp _
  | authenticationFailed => exact h.giveUp _
  | invalidPdu => exact h.giveUp _

theorem not_followed_zero : ¬ Followed 0 0 := by
  rintro ⟨hclass, _⟩
  cases hclass

theorem Within.request
    (h : Within limit d (requestsLeft d.session) (2 * requestsLeft d.session + 2)) :
    Bounded limit (request cfg d) := by
  unfold DiscoveryLogin.request
  cases hmake : iscsiMakeLoginPdu cfg.dataLen d.session with
  | mk s' made =>
    cases made with
    | none =>
      exact (h.congr (e := { d with session := s' }) rfl rfl rfl rfl).loginDone (by omega)
        not_followed_zero _
    | some req =>
      obtain ⟨hused, hstage⟩ := requestsAfter_made hmake
      obtain ⟨hattempts, hpdus, hanswers⟩ := h
      refine ⟨⟨hattempts, ?_, ?_⟩, fun _ => hstage⟩
      · dsimp only [pdusLeft]
        omega
      · dsimp only [answersLeft]
        omega

theorem Within.nextRound
    (h : Within limit d (requestsLeft d.session) (2 * requestsLeft d.session + 2)) :
    Bounded limit (nextRound cfg d) := by
  unfold DiscoveryLogin.nextRound
  split
  · exact h.loginDone (by omega) not_followed_zero _
  · exact h.request

/-- A login begins with a client that has taken no message. -/
theorem Within.beginLogin
    (h : Within limit d attemptPdus (2 * attemptPdus + 2)) :
    Bounded limit (beginLogin cfg d) := by
  unfold DiscoveryLogin.beginLogin
  have hrounds := rounds_iscsiLoginBegin cfg.usable { d.session with expStatsn := 0 }
  generalize iscsiLoginBegin cfg.usable { d.session with expStatsn := 0 } = b at hrounds ⊢
  obtain ⟨s', status⟩ := b
  have hleft := requestsLeft_le s'
  dsimp only at hrounds
  rw [hrounds] at hleft
  have hpdus : requestsLeft s' ≤ attemptPdus := hleft
  have hnew := h.congr (e := { d with session := s' }) rfl rfl rfl rfl
  cases status with
  | ok => exact (hnew.mono hpdus (by dsimp only; omega)).request
  | _ => exact hnew.loginDone (by omega) not_followed_zero _

theorem Within.afterParams
    (h : Within limit d attemptPdus (2 * attemptPdus + 2)) :
    Bounded limit (afterParams cfg d) := by
  unfold DiscoveryLogin.afterParams
  split
  · exact h.toStarting (by omega)
  · exact h.beginLogin

/-! ## The condition -/

def ResponseMoves (s : LoginSession) (rsp : LoginRsp) (statusDetail : UInt8) : Prop :=
  ¬ Followed rsp.statusClass statusDetail ∧
    (rsp.statusClass = 0 → s.currentStage = opParmsNegotiationStage → rsp.transit = true)

/-- What a target and its host may answer. -/
def Moves (d : Discovery) : Answer → Prop
  | .polled .early => False
  | .polled (.response _ rsp statusDetail) => ResponseMoves d.session rsp statusDetail
  | _ => True

theorem Within.takeResponse {env : RspEnv}
    {rsp : LoginRsp} {statusDetail : UInt8}
    (h : Within limit d (requestsAfter d.session) (2 * requestsAfter d.session + 2))
    (hstage : Negotiating d.session) (hmoves : ResponseMoves d.session rsp statusDetail) :
    Bounded limit (takeResponse cfg d env rsp statusDetail) := by
  unfold DiscoveryLogin.takeResponse
  dsimp only
  have hnew : ∀ s', Within limit { d with session := s' } (requestsAfter d.session)
      (2 * requestsAfter d.session + 2) := fun s' => h.congr rfl rfl rfl rfl
  split
  · rename_i hclass
    split
    · rename_i hok
      have hleft := requestsLeft_processed hok hclass hstage (hmoves.2 hclass)
      have hanswers := Nat.add_le_add_right (Nat.mul_le_mul_left 2 hleft) 2
      exact ((hnew _).mono hleft hanswers).nextRound
    · exact (hnew _).loginDone (by omega) hmoves.1 _
  · split
    · exact (hnew _).loginDone (by omega) hmoves.1 _
    · exact h.loginDone (by omega) hmoves.1 _

theorem Within.polled {p : Poll}
    (h : Within limit d (requestsAfter d.session) (2 * requestsAfter d.session + 2))
    (hstage : Negotiating d.session) (hagain : p.isAgain = false) (hmoves : Moves d (.polled p)) :
    Bounded limit (polled cfg d p) := by
  have hdone : ∀ status, Bounded limit (DiscoveryLogin.loginDone cfg d status 0 0) :=
    fun status => h.loginDone (by omega) not_followed_zero status
  cases p with
  | early => exact hmoves.elim
  | again => cases hagain
  | response env rsp statusDetail => exact h.takeResponse hstage hmoves
  | expired => exact hdone .failed
  | failed => exact hdone .failed
  | hup => exact hdone .failed
  | nval => exact hdone .ioError
  | err => exact hdone .ioError
  | ioError => exact hdone .ioError
  | draft8 => exact hdone .versionMismatch
  | opcode => exact hdone .invalidPdu

/-- Each answer is paid for by the attempt or by a retry. -/
theorem step_bounded (d : Discovery) (a : Answer)
    (h : Bounded limit d) (hmoves : Moves d a) : Bounded limit (step cfg d a) := by
  obtain ⟨hwithin, hstage⟩ := h
  have hkeep : Bounded limit d := ⟨hwithin, hstage⟩
  unfold pdusLeft answersLeft at hwithin
  unfold step
  split
  · rename_i rc hphase
    rw [hphase] at hwithin
    have hpaid : Within limit (counted d) attemptPdus (2 * attemptPdus + 3) := hwithin.counted
    dsimp only
    split
    · exact hpaid.failAgain.reconnect
    · split
      · refine ⟨hpaid.congr rfl rfl rfl rfl, ?_⟩
        rintro (hnext | hnext)
        · cases hnext
        · cases hnext
      · apply Within.afterParams
        exact (hpaid.mono le_rfl (Nat.le_succ _)).congr rfl rfl rfl rfl
  · rename_i rc hphase
    rw [hphase] at hwithin
    have hpaid : Within limit (counted d) attemptPdus (2 * attemptPdus + 2) := hwithin.counted
    split
    · exact hpaid.giveUp _
    · exact hpaid.afterParams
  · rename_i ok hphase
    rw [hphase] at hwithin
    have hpaid : Within limit (counted d) (requestsAfter d.session)
      (2 * requestsAfter d.session + 3) := hwithin.counted
    split
    · exact ⟨hpaid.congr rfl rfl rfl rfl, fun _ => hstage (.inl hphase)⟩
    · exact hpaid.loginDone (by omega) not_followed_zero _
  · rename_i p hphase
    rw [hphase] at hwithin
    have hpaid : Within limit (counted d) (requestsAfter d.session)
      (2 * requestsAfter d.session + 2) := hwithin.counted
    split
    · exact hkeep
    · rename_i hagain
      refine hpaid.polled (hstage (.inr hphase)) (Bool.eq_false_of_not_eq_true hagain) ?_
      cases p with
      | early => exact hmoves
      | response env rsp statusDetail => exact hmoves
      | _ => trivial
  · rename_i ok hphase
    rw [hphase] at hwithin
    have hpaid : Within limit (counted d) 0 1 := hwithin.counted
    split
    · exact hpaid.giveUp _
    · split
      · refine ⟨hpaid.congr rfl rfl rfl rfl, ?_⟩
        rintro (hnext | hnext)
        · cases hnext
        · cases hnext
      · exact hpaid.giveUp _
  · rename_i rc hphase
    rw [hphase] at hwithin
    have hpaid : Within limit (counted d) 0 0 := hwithin.counted
    exact hpaid.giveUp _
  · exact hkeep

theorem start_bounded (session : LoginSession) {left : Int} (hleft : left.toNat ≤ limit) :
    Bounded limit (start session left) := by
  refine Within.setAddress (p := 0) (q := 0) ⟨?_, ?_, ?_⟩
  · dsimp only
    omega
  · dsimp only
    rw [Nat.zero_add, Nat.add_zero]
    exact Nat.mul_le_mul_left _ hleft
  · dsimp only
    rw [Nat.zero_add, Nat.add_zero]
    exact Nat.mul_le_mul_left _ hleft

/-- The retries that `iscsi_alloc_session` gives a discovery session. -/
def reopenCnt (cfg : Config) : Int := cfg.reopenMax + 1

/-- Where every response that stays in the operational stage and every redirect is
missing, the attempts are those of `reopen_max`, each of them makes a bounded number
of requests, and the function takes no more answers than that allows. -/
theorem login_gives_up (cfg : Config) (session : LoginSession) (left : Int)
    (hleft : left ≤ reopenCnt cfg) (answers : List Answer)
    (hmoves : Runs.Guarded (step cfg) Moves (start session left) answers) :
    (run cfg session left answers).attempts ≤ (reopenCnt cfg).toNat ∧
      (run cfg session left answers).pdus ≤ 12 * (reopenCnt cfg).toNat ∧
      (run cfg session left answers).answers ≤ 28 * (reopenCnt cfg).toNat := by
  have hbound : Bounded (reopenCnt cfg).toNat (run cfg session left answers) :=
    Runs.Guarded.run_invariant (fun d a h hm => step_bounded d a h hm)
      (start_bounded session (Int.toNat_le_toNat hleft)) hmoves
  obtain ⟨⟨hattempts, hpdus, hanswers⟩, _⟩ := hbound
  refine ⟨by omega, ?_, ?_⟩
  · have hwhole : attemptPdus = 12 := rfl
    rw [hwhole] at hpdus
    omega
  · have hwhole : attemptAnswers = 28 := rfl
    rw [hwhole] at hanswers
    omega

def plainConfig (reopenMax : Int) : Config where
  reopenMax := reopenMax
  textNego := false
  loginOffload := false
  conf := plainConf
  template := .plain
  digest := secretByteDigest
  usable := fun _ => true
  dataLen := 8192

def discoverySession : LoginSession :=
  { initiatorName := ascii "iqn.initiator", type := .discovery }

def answered (flags statusClass statusDetail : UInt8) : List Answer :=
  [.sent true, .polled (.response quietEnv ⟨flags, statusClass, 0, 0, 0, 0, 0, []⟩ statusDetail)]

/-- A refused connection, and a target that lets the session in. -/
theorem login_gives_up_second :
    (run (plainConfig 1) discoverySession 2
      (.connected 7 :: .connected 0 :: answered 0x87 0 0)).attempts ≤ 2 :=
  (login_gives_up (plainConfig 1) discoverySession 2 (by decide)
    (.connected 7 :: .connected 0 :: answered 0x87 0 0)
    ⟨trivial, trivial, trivial, ⟨not_followed_zero, fun _ _ => by decide⟩, trivial⟩).1

/-- With one attempt allowed, a redirect leads to a second one, and a target that
answers without the transit bit is sent one request after another. -/
theorem redirect_takes_no_retry :
    (run (plainConfig 0) discoverySession 1 (.connected 0 :: answered 0x87 1 1)).attempts = 2 ∧
    (run (plainConfig 0) discoverySession 1
      (.connected 0 :: (List.replicate 13 (answered 0x04 0 0)).flatten)).pdus = 14 := by
  decide +kernel

end DiscoveryLogin
