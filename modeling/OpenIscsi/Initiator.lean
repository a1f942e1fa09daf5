import OpenIscsi.SafeLogout

/-!
# A session of `initiator.c`

One session with its one connection (`ISCSI_CONN_MAX` is 1), its timers and its pool
of event contexts. What the kernel and the rest of the system answer to the calls of
one callback is a parameter; no callback makes the same call twice. The actors are
those of `actor.c`: a delay of zero makes one ready at once. Addresses, parameters and
what is only logged are left out.
-/

namespace Initiator

open SafeLogout (ConnState RStage)

/-! ## State -/

/-- A `queue_task`: a request of `iscsiadm`, or the session's own `reopen_qtask`. -/
inductive Task where
  | request (n : Nat) | reopen
  deriving DecidableEq, Repr

/-- `enum iscsi_err`, the values that reach a response or decide something. -/
inductive Err where
  | success | internal | nomem | trans | transTimeout | pduTimeout | login | fatalLogin
  | loginAuthFailed | sessExists | sessNotFound | sessionNotConnected | busy | transNotFound
  deriving DecidableEq, Repr

/-- When an actor runs: it is on the ready list, or due at a time. -/
inductive When where
  | ready | waiting (due : Nat)
  deriving DecidableEq, Repr

/-- `iscsi_event_e`, with what the context carries. -/
inductive Event where
  | recvPdu | error (invalidHost : Bool) | login (failed : Bool) | poll (qtask : Task)
  | logoutTimer | stop
  deriving DecidableEq, Repr

/-- The callback of `nop_out_timer`. -/
inductive Ping where
  | sendNopOut | nopOutTimeout
  deriving DecidableEq, Repr

structure Context where
  event : Event
  when : When
  deriving DecidableEq, Repr

def contextPoolMax : Nat := 32

/-- The fields of `iscsi_session` and its connection that the functions below use. -/
structure Session where
  /-- `session->id` is not `INVALID_SESSION_ID`. -/
  hasId : Bool := false
  /-- `CAP_LOGIN_OFFLOAD`. -/
  loginOffload : Bool := false
  erl : Nat := 0
  state : ConnState := .free
  rStage : RStage := .noChange
  reopenCnt : Nat := 0
  reopenMax : Nat := 0
  initialLoginRetryMax : Nat := 0
  /-- Microseconds. -/
  initialConnectTime : Nat := 0
  loginTimeout : UInt32 := 15
  logoutTimeout : UInt32 := 15
  /-- The pings are sent by user space. -/
  userspaceNop : Bool := false
  noopOutInterval : UInt32 := 0
  noopOutTimeout : UInt32 := 0
  defTime2wait : UInt32 := 0
  notifyQtask : Option Task := none
  logoutQtask : Option Task := none
  /-- `login_context.qtask`. -/
  loginQtask : Option Task := none
  loginTimer : Option (When × Task) := none
  nopOutTimer : Option (When × Ping) := none
  /-- The contexts in use. -/
  contexts : List Context := []
  deriving DecidableEq, Repr

/-- What `iscsi_recv_login_rsp` makes of a login response. -/
inductive LoginRsp where
  | failed (auth : Bool) | retry | redirect | more | fullFeature
  deriving DecidableEq, Repr

/-- A PDU of a connection that is logged in. -/
inductive Pdu where
  | none | nopInRsp | nopInReq | logoutRsp (time2wait : Option UInt32) | requestLogout
  | dropping (time2wait : UInt32) | paramNegotiation | other
  deriving DecidableEq, Repr

/-- What the kernel and the system answer while one callback runs; `true` is success. -/
structure Kernel where
  /-- The monotonic clock, in seconds. -/
  now : Nat := 0
  /-- `gettimeofday`, in microseconds. -/
  timeOfDay : Option Nat := none
  hasLeadconn : Bool := true
  stopConn : Bool := true
  destroyConn : Bool := true
  destroySession : Bool := true
  unbindSession : Bool := true
  sendPdu : Bool := true
  setNetConfig : Bool := true
  epConnect : Bool := true
  epPoll : Int := 1
  createSession : Bool := true
  createConn : Bool := true
  bindConn : Bool := true
  sessionSetParams : Bool := true
  hostSetParams : Bool := true
  loginBegin : Bool := true
  loginReq : Bool := true
  setNegParams : Bool := true
  startConn : Bool := true
  /-- `start_conn` fails because the session exists. -/
  startConnExists : Bool := false
  loginRsp : LoginRsp := .fullFeature
  pdu : Pdu := .none
  scanHost : Bool := true
  /-- What an uninitialised local variable holds. -/
  garbage : UInt32 := 0
  deriving DecidableEq, Repr

/-- What the rest of the world sees of a callback. -/
inductive Output where
  | respond (n : Nat) (err : Err)
  | unbound | logoutSent | shutdown | reopen
  /-- A null pointer is followed. -/
  | crash
  deriving DecidableEq, Repr

/-- What a callback leaves behind; without a session it was destroyed. -/
structure Turn where
  session : Option Session
  out : List Output := []
  deriving DecidableEq, Repr

def mgmtIpcWriteRsp (qtask : Option Task) (err : Err) : List Output :=
  match qtask with
  | some (.request n) => [.respond n err]
  | _ => []

def actorTimer (now : Nat) (delay : UInt32) : When :=
  if delay = 0 then .ready else .waiting (now + delay.toNat)

/-! ## Contexts -/

def schedEvContext (s : Session) (event : Event) (w : When) : Option Session :=
  if s.contexts.length < contextPoolMax then
    some { s with contexts := s.contexts ++ [⟨event, w⟩] }
  else none

def flushContextPool (s : Session) : Session := { s with contexts := [] }

def connDeleteTimers (s : Session) : Session := { s with loginTimer := none, nopOutTimer := none }

/-! ## Shutdown -/

/-- The states in which the kernel's connection is stopped first. -/
def stopsConn : ConnState → Bool
  | .inLogin => true
  | .inLogout => true
  | .loggedIn => true
  | _ => false

/-- `session_conn_shutdown`; the flag says whether it returns success. -/
def sessionConnShutdown (k : Kernel) (s : Session) (qtask : Option Task) (err : Err) :
    Bool × Turn :=
  if s.hasId && k.hasLeadconn && stopsConn s.state && !k.stopConn then
    (false, ⟨some s, [.shutdown]⟩)
  else if s.hasId && k.hasLeadconn && !k.destroyConn then (false, ⟨some s, [.shutdown]⟩)
  else if s.hasId && !k.destroySession then
    (false, ⟨some { s with rStage := .sessionDestoyed }, [.shutdown]⟩)
  else (true, ⟨none, .shutdown :: mgmtIpcWriteRsp qtask err⟩)

/-! ## Logout -/

inductive SendLogout where
  | sent | einval | eio | enomem
  deriving DecidableEq, Repr

def iscsiSendLogout (k : Kernel) (s : Session) : SendLogout × Turn :=
  if s.state ≠ .loggedIn then (.einval, ⟨some s, []⟩)
  else if !k.sendPdu then (.eio, ⟨some s, []⟩)
  else
    let s := { s with state := .inLogout }
    match schedEvContext s .logoutTimer (actorTimer k.now s.logoutTimeout) with
    | none => (.enomem, ⟨some s, [.logoutSent]⟩)
    | some s => (.sent, ⟨some s, [.logoutSent]⟩)

/-- What `session_logout_task` returns and leaves behind. -/
structure LogoutEnd where
  rc : Err
  turn : Turn
  deriving DecidableEq, Repr

def logoutShutdown (k : Kernel) (s : Session) (qtask : Task) (out : List Output) : LogoutEnd :=
  let r := sessionConnShutdown k s (some qtask) .success
  ⟨if r.1 then .success else .internal, ⟨r.2.session, out ++ r.2.out⟩⟩

def startLogout (k : Kernel) (s : Session) (qtask : Task) : LogoutEnd :=
  let s := { s with logoutQtask := some qtask }
  if s.state = .loggedIn then
    if k.unbindSession then ⟨.success, ⟨some s, [.unbound]⟩⟩
    else if s.loginOffload then logoutShutdown k s qtask []
    else
      let r := iscsiSendLogout k s
      if r.1 ≠ .sent then ⟨.success, r.2⟩
      else logoutShutdown k (r.2.session.getD s) qtask r.2.out
  else logoutShutdown k s qtask []

/-- The states in which `session_logout_task` refuses at once. -/
def invalidState (s : Session) : Bool :=
  s.notifyQtask.isSome ||
    ((s.state == .xptWait || s.state == .inLogin) &&
      (s.rStage == .noChange || s.rStage == .sessionRedirect))

/-- `session_logout_task` at the session with the id it was given, if there is one;
`inUse` is `safe_logout && session_in_use`. -/
def sessionLogoutTask (inUse : Bool) (k : Kernel) (qtask : Task) : Option Session → LogoutEnd
  | none => ⟨.sessNotFound, ⟨none, []⟩⟩
  | some s =>
    if s.notifyQtask.isSome && s.state == .xptWait && s.rStage == .sessionReopen then
      ⟨.sessionNotConnected, ⟨some s, []⟩⟩
    else if invalidState s then ⟨.internal, ⟨some s, []⟩⟩
    else if inUse then ⟨.busy, ⟨some s, []⟩⟩
    else if s.logoutQtask.isSome then ⟨.internal, ⟨some s, []⟩⟩
    else startLogout k s qtask

/-! ## Reopen -/

def connErrReopenDelay : UInt32 := 3
def internalErrReopenDelay : UInt32 := 5

def queueDelayedReopen (k : Kernel) (s : Session) (qtask : Task) (delay : UInt32) : Session :=
  { s with loginTimer := some (actorTimer k.now delay, qtask) }

def iscsiConnConnect (k : Kernel) (s : Session) (qtask : Task) : Option Session :=
  if k.epConnect then
    (schedEvContext s (.poll qtask) .ready).map (fun s =>
      { s with loginTimer := some (actorTimer k.now s.loginTimeout, qtask) })
  else none

/-- How `__session_conn_reopen` ends: it connects, or it queues another reopen. Its local
variable `delay` may never have been assigned. -/
inductive ReopenEnd where
  | connecting | queued (delay : Option UInt32)
  deriving DecidableEq, Repr

def queueReopen (k : Kernel) (s : Session) (qtask : Task) (delay : Option UInt32) :
    ReopenEnd × Session :=
  (.queued delay, queueDelayedReopen k s qtask (delay.getD k.garbage))

def connectOrQueue (k : Kernel) (s : Session) (qtask : Task) : ReopenEnd × Session :=
  match iscsiConnConnect k s qtask with
  | some s => (.connecting, s)
  | none => queueReopen k s qtask (some connErrReopenDelay)

def sessionConnReopen (k : Kernel) (s : Session) (qtask : Task) (doStop redirected : Bool) :
    ReopenEnd × Session :=
  let s := { connDeleteTimers (flushContextPool s) with state := .xptWait }
  if doStop && !k.stopConn then queueReopen k s qtask (some internalErrReopenDelay)
  else
    let delay := if redirected then none else some s.defTime2wait
    let s := if redirected then s else { s with defTime2wait := 0 }
    if delay ≠ none ∧ delay ≠ some 0 then queueReopen k s qtask delay
    else
      let s := if redirected then s else { s with reopenCnt := s.reopenCnt + 1 }
      if !k.setNetConfig then queueReopen k s qtask delay else connectOrQueue k s qtask

/-- A callback that ends in a reopen. -/
def reopening (k : Kernel) (s : Session) (qtask : Option Task) (doStop redirected : Bool) : Turn :=
  match qtask with
  | none => ⟨some s, [.crash]⟩
  | some qtask => ⟨some (sessionConnReopen k s qtask doStop redirected).2, [.reopen]⟩

/-! ## Errors -/

def iscsiRetryInitialLogin (k : Kernel) (s : Session) : Bool :=
  match k.timeOfDay with
  | none => s.initialLoginRetryMax > s.reopenCnt
  | some now =>
    now ≤ s.initialConnectTime + s.initialLoginRetryMax * s.loginTimeout.toNat * 1000000

def iscsiLoginIsFatalErr (err : Err) : Bool := err = .loginAuthFailed || err = .fatalLogin

/-- A callback that ends in a shutdown whose result is not used. -/
def shuttingDown (k : Kernel) (s : Session) (qtask : Option Task) (err : Err) : Turn :=
  (sessionConnShutdown k s qtask err).2

def iscsiLoginEh (k : Kernel) (s : Session) (qtask : Option Task) (err : Err) : Turn :=
  let s := flushContextPool s
  let givesUp := iscsiLoginIsFatalErr err || !iscsiRetryInitialLogin k s
  match s.state with
  | .xptWait =>
    match s.rStage with
    | .noChange =>
      if givesUp then shuttingDown k s qtask err else reopening k s qtask s.hasId false
    | .sessionRedirect =>
      if givesUp then shuttingDown k s qtask err else reopening k s qtask false false
    | .sessionReopen =>
      if s.reopenMax ≠ 0 ∧ s.reopenMax < s.reopenCnt then shuttingDown k s qtask err
      else reopening k s qtask false false
    | .sessionCleanup => shuttingDown k s qtask err
    | .sessionDestoyed => ⟨some s, []⟩
  | .inLogin =>
    match s.rStage with
    | .noChange =>
      if givesUp then shuttingDown k s qtask err else reopening k s qtask true false
    | .sessionRedirect =>
      if givesUp then shuttingDown k s qtask err else reopening k s qtask true false
    | .sessionReopen => reopening k s qtask true false
    | .sessionCleanup => shuttingDown k s qtask .pduTimeout
    | .sessionDestoyed => ⟨some s, []⟩
  | _ => ⟨some s, []⟩

/-- A connection that was logged in failed. -/
def connFailed (k : Kernel) (s : Session) : Turn :=
  let s := { s with state := .cleanupWait }
  let s := if 0 < s.erl then s else { s with rStage := .sessionReopen }
  if s.rStage = .sessionReopen then reopening k s (some .reopen) true false else ⟨some s, []⟩

def connErrorHandle (k : Kernel) (s : Session) : Turn :=
  if s.logoutQtask.isSome then shuttingDown k s s.logoutQtask .success
  else
    match s.state with
    | .inLogout => connFailed k s
    | .loggedIn => connFailed k s
    | .inLogin =>
      if s.rStage = .sessionReopen then
        iscsiLoginEh k s (some (s.notifyQtask.getD .reopen)) .trans
      else ⟨some s, []⟩
    | _ => ⟨some s, []⟩

def iscsiLoginRedirect (k : Kernel) (s : Session) : Turn :=
  let s := if s.rStage = .noChange then { s with rStage := .sessionRedirect } else s
  reopening k s s.loginQtask true true

/-- `session_scan_host`: the child answers, or nobody can be started to. -/
def sessionScanHost (k : Kernel) (qtask : Option Task) : List Output :=
  mgmtIpcWriteRsp qtask (if k.scanHost then .success else .internal)

def loginAnswer (k : Kernel) (s : Session) : List Output :=
  if s.rStage = .noChange ∨ s.rStage = .sessionRedirect then sessionScanHost k s.loginQtask
  else mgmtIpcWriteRsp s.loginQtask .success

def setupFullFeaturePhase (k : Kernel) (s : Session) : Turn :=
  let s := { s with loginTimer := none }
  if !k.setNegParams then iscsiLoginEh k s s.loginQtask .login
  else if !k.startConn then iscsiLoginEh k s s.loginQtask .internal
  else
    let first := s.rStage = .noChange ∨ s.rStage = .sessionRedirect
    ⟨some { s with
        state := .loggedIn
        notifyQtask := if first then s.notifyQtask else none
        reopenCnt := 0
        rStage := .noChange
        nopOutTimer :=
          if s.userspaceNop && s.noopOutInterval ≠ 0 then
            some (actorTimer k.now s.noopOutInterval, .sendNopOut)
          else s.nopOutTimer },
      loginAnswer k s⟩

def setupOffloadLoginPhase (k : Kernel) (s : Session) : Turn :=
  let s := { s with loginTimer := none }
  if !k.sessionSetParams || !k.setNegParams || !k.hostSetParams then
    iscsiLoginEh k s s.loginQtask .login
  else
    let s := { s with state := .inLogin }
    if !k.startConn then
      if k.startConnExists then shuttingDown k s s.loginQtask .sessExists
      else iscsiLoginEh k s s.loginQtask .internal
    else ⟨some { s with notifyQtask := s.loginQtask }, []⟩

def iscsiRecvLoginRsp (k : Kernel) (s : Session) : Turn :=
  match k.loginRsp with
  | .failed auth =>
    iscsiLoginEh k { s with reopenCnt := s.initialLoginRetryMax } s.loginQtask
      (if auth then .loginAuthFailed else .fatalLogin)
  | .retry => iscsiLoginEh k s s.loginQtask .login
  | .redirect => iscsiLoginRedirect k s
  | .more =>
    let s := { s with state := .inLogin }
    if k.loginReq then ⟨some s, []⟩ else iscsiLoginEh k s s.loginQtask .login
  | .fullFeature => setupFullFeaturePhase k s

/-- The login that `session_conn_poll` begins on a connection that is bound. -/
def beginLogin (k : Kernel) (s : Session) (qtask : Task) : Turn :=
  let s := { s with loginQtask := some qtask }
  if s.loginOffload then setupOffloadLoginPhase k s
  else if !k.sessionSetParams || !k.hostSetParams || !k.loginBegin then
    iscsiLoginEh k s (some qtask) .login
  else
    let s := { s with state := .inLogin }
    if k.loginReq then ⟨some s, []⟩ else iscsiLoginEh k s (some qtask) .login

def connected (k : Kernel) (s : Session) (qtask : Task) : Turn :=
  let s := { s with loginQtask := none }
  if !s.hasId && !k.createSession then shuttingDown k s (some qtask) .internal
  else if !s.hasId && !k.createConn then
    shuttingDown k { s with hasId := true } (some qtask) .internal
  else
    let s := { s with hasId := true }
    if !k.bindConn then iscsiLoginEh k s (some qtask) .login else beginLogin k s qtask

def sessionConnPoll (k : Kernel) (s : Session) (qtask : Task) : Turn :=
  if s.state ≠ .xptWait then ⟨some s, []⟩
  else if k.epPoll = 0 then
    match schedEvContext s (.poll qtask) (actorTimer k.now 1) with
    | some s => ⟨some s, []⟩
    | none => iscsiLoginEh k s (some qtask) .internal
  else if 0 < k.epPoll then connected k s qtask
  else ⟨some (queueDelayedReopen k s qtask connErrReopenDelay), []⟩

/-! ## A session that is logged in -/

def recvFullFeature (k : Kernel) (s : Session) : Turn :=
  match k.pdu with
  | .nopInRsp =>
    if s.userspaceNop then
      ⟨some { s with nopOutTimer := some (actorTimer k.now s.noopOutInterval, .sendNopOut) }, []⟩
    else ⟨some s, []⟩
  | .logoutRsp time2wait =>
    connErrorHandle k { s with defTime2wait := time2wait.getD s.defTime2wait }
  | .requestLogout => (iscsiSendLogout k s).2
  | .dropping time2wait => ⟨some { s with defTime2wait := time2wait }, []⟩
  | .paramNegotiation => connErrorHandle k s
  | _ => ⟨some s, []⟩

def sessionConnRecvPdu (k : Kernel) (s : Session) : Turn :=
  match s.state with
  | .inLogin => iscsiRecvLoginRsp k s
  | .loggedIn => recvFullFeature k s
  | .inLogout => recvFullFeature k s
  | .logoutRequested => recvFullFeature k s
  | _ => ⟨some s, []⟩

inductive Actor where
  | loginTimer | nopOutTimer | context (i : Nat)
  deriving DecidableEq, Repr

def When.ripen (now : Nat) : When → When
  | .ready => .ready
  | .waiting due => if due ≤ now then .ready else .waiting due

/-- The first loop of `actor_poll`. -/
def ripen (now : Nat) (s : Session) : Session :=
  { s with
    loginTimer := s.loginTimer.map (fun t => (t.1.ripen now, t.2))
    nopOutTimer := s.nopOutTimer.map (fun t => (t.1.ripen now, t.2))
    contexts := s.contexts.map (fun c => { c with when := c.when.ripen now }) }

end Initiator
