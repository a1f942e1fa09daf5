import OpenIscsi.Lib.Runs

/-!
# Requests and events on the netlink socket

`__kipc_call`, `ctldev_handle` and `nlpayload_read` of `usr/netlink.c` with the event
callbacks of `usr/initiator.c`. Replies and events share one socket. The kernel adds
messages at its end at any time; the daemon reads from its front, in the loop of the
call it is in, in the caller of that loop, or from the event loop.
-/

namespace Netlink

/-- The down events of `enum iscsi_uevent_e`: the types of requests and of their replies. -/
inductive Uevent where
  | createSession | destroySession | createConn | destroyConn | bindConn | setParam
  | startConn | stopConn | sendPdu | getStats | getParam
  | transportEpConnect | transportEpPoll | transportEpDisconnect
  | tgtDscvr | setHostParam | unbindSession | createBoundSession
  | transportEpConnectThroughHost | pathUpdate | setIfaceParams | ping | getChap
  | deleteChap | setFlashnodeParams | newFlashnode | delFlashnode | loginFlashnode
  | logoutFlashnode | logoutFlashnodeSid | setChap | getHostStats
  deriving DecidableEq, Repr

def Uevent.readByCaller : Uevent → Bool
  | .getStats => true
  | .getChap => true
  | .getHostStats => true
  | _ => false

/-- The up events other than `ISCSI_KEVENT_IF_ERROR`, with what follows the event
structure in the message. The last case is any type without a branch of its own. -/
inductive Kevent where
  | recvPdu (sid cid : Nat) (pdu : List UInt8)
  | connError (sid cid error : Nat)
  | connLoginState (sid cid state : Nat)
  | unbindSession (sid hostNo : Nat)
  | hostEvent (hostNo code : Nat) (data : List UInt8)
  | pingComp (hostNo status pid : Nat) (data : List UInt8)
  | createSession (hostNo sid : Nat)
  | destroySession (hostNo sid : Nat)
  | other (type : Nat) (data : List UInt8)
  deriving DecidableEq, Repr

/-- A message on the socket. The number of the request that a reply or an interface
error answers is history: nothing below reads it. -/
inductive Message where
  /-- `r` is the first two words of the union of return values. -/
  | reply (req : Nat) (type : Uevent) (r : Nat × Nat) (data : List UInt8)
  | ifError (req : Nat) (iferror : Int)
  | event (k : Kevent)
  deriving DecidableEq, Repr

def sizeofUevent : Nat := 56

def sizeofHdr : Nat := 48

def defMaxRecvSegLen : Nat := 8192

/-- `MGMT_IPC_GETSTATS_BUF_MAX`: the event, the statistics and 32 custom ones. -/
def statsbufMax : Nat := sizeofUevent + 96 + 72 * 32

def nlmsgAlign (n : Nat) : Nat := (n + 3) / 4 * 4

def nlmsgSpace (n : Nat) : Nat := nlmsgAlign (n + 16)

def nlmBufDefaultMax : Nat := nlmsgSpace (defMaxRecvSegLen + sizeofUevent + sizeofHdr)

/-- What follows the event structure. -/
def Kevent.data : Kevent → List UInt8
  | .recvPdu _ _ pdu => pdu
  | .hostEvent _ _ data => data
  | .pingComp _ _ _ data => data
  | .other _ data => data
  | _ => []

/-- `nlh->nlmsg_len` without the netlink header. -/
def Message.evSize : Message → Nat
  | .reply _ _ _ data => sizeofUevent + data.length
  | .ifError _ _ => sizeofUevent
  | .event k => sizeofUevent + k.data.length

/-- One session with its leading connection: which contexts of the connection's pool
are allocated. -/
structure Session where
  id : Nat
  pool : List Bool
  deriving DecidableEq, Repr

structure PingEvent where
  hostNo : Int := 0
  pid : Int := 0
  status : Int := 0
  active : Int := 0
  deriving DecidableEq, Repr

/-- `enum iscsi_event_e` with the data in the context at the time of the call. -/
inductive ConnEvent where
  | recvPdu (pdu : List UInt8)
  | error (error : Nat)
  | login (state : Nat)
  | stop
  deriving DecidableEq, Repr

/-- One call of `sched_ev_context`. -/
structure Sched where
  sid : Nat
  slot : Nat
  event : ConnEvent
  deriving DecidableEq, Repr

/-- One call of `create_session` or `destroy_session`. -/
inductive Notice where
  | created (hostNo sid : Nat)
  | destroyed (hostNo sid : Nat)
  deriving DecidableEq, Repr

/-- The daemon's side: the socket, what was read off it, and the callbacks made. -/
structure Daemon where
  queue : List Message := []
  taken : List Message := []
  sessions : List Session := []
  pingEvent : PingEvent := {}
  sched : List Sched := []
  notices : List Notice := []
  deriving DecidableEq, Repr

/-- `nlpayload_read`, with or without `MSG_PEEK`. A read of an empty socket blocks, so
it is only made with a message there. -/
def nlpayloadRead (d : Daemon) (count : Nat) (peek : Bool) : Option Message × Daemon :=
  if nlmBufDefaultMax < nlmsgSpace count then (none, d)
  else
    match d.queue with
    | [] => (none, d)
    | m :: rest =>
      if peek then (some m, d)
      else (some m, { d with queue := rest, taken := d.taken ++ [m] })

def dropData (d : Daemon) (m : Message) : Daemon := (nlpayloadRead d m.evSize false).2

def sessionFindBySid (d : Daemon) (sid : Nat) : Option Session :=
  d.sessions.find? (·.id == sid)

def setPool : List Session → Nat → List Bool → List Session
  | [], _, _ => []
  | s :: rest, sid, pool =>
    if s.id = sid then { s with pool := pool } :: rest else s :: setPool rest sid pool

def iscsiEvContextGet (s : Session) (evSize : Nat) : Option Nat :=
  if nlmBufDefaultMax < evSize then none else s.pool.findIdx? (· == false)

/-- The context is allocated. -/
def allocate (d : Daemon) (sid slot : Nat) (s : Session) : Daemon :=
  { d with sessions := setPool d.sessions sid (s.pool.set slot true) }

/-- A context for the daemon's own use, such as a poll or a logout timer. -/
def takeContext (d : Daemon) (sid : Nat) : Daemon :=
  match sessionFindBySid d sid with
  | some s =>
    match iscsiEvContextGet s 0 with
    | some slot => allocate d sid slot s
    | none => d
  | none => d

def iscsiEvContextPut (d : Daemon) (sid slot : Nat) : Daemon :=
  match sessionFindBySid d sid with
  | some s => { d with sessions := setPool d.sessions sid (s.pool.set slot false) }
  | none => d

def enxio : Int := 6

def enomem : Int := 12

/-- The part of `ctldev_handle` after the session id is known. -/
def handleConn (d : Daemon) (m : Message) (sid : Nat) (event : ConnEvent) : Int × Daemon :=
  match sessionFindBySid d sid with
  | none => (-enxio, dropData d m)
  | some s =>
    match iscsiEvContextGet s m.evSize with
    | none => (-enomem, dropData d m)
    | some slot =>
      match nlpayloadRead (allocate d sid slot s) m.evSize false with
      | (none, d) => (-1, iscsiEvContextPut d sid slot)
      | (some _, d) => (0, { d with sched := d.sched ++ [⟨sid, slot, event⟩] })

/-- The session and the event that the branches of `ctldev_handle` read off a message;
the connection id is only logged. -/
def Kevent.connEvent : Kevent → Option (Nat × ConnEvent)
  | .recvPdu sid _ pdu => some (sid, .recvPdu pdu)
  | .connError sid _ error => some (sid, .error error)
  | .connLoginState sid _ state => some (sid, .login state)
  | .unbindSession sid _ => some (sid, .stop)
  | _ => none

/-- The branches that drop the message and call no `sched_ev_context`. -/
def handleOther (d : Daemon) (m : Message) : Daemon :=
  match m with
  | .event (.createSession hostNo sid) =>
    { dropData d m with notices := d.notices ++ [.created hostNo sid] }
  -- old kernels send the down event on creation
  | .reply _ .createSession (sid, hostNo) _ =>
    { dropData d m with notices := d.notices ++ [.created hostNo sid] }
  | .event (.destroySession hostNo sid) =>
    { dropData d m with notices := d.notices ++ [.destroyed hostNo sid] }
  | .event (.pingComp hostNo status pid _) =>
    { dropData d m with pingEvent := ⟨hostNo, pid, status, 1⟩ }
  | _ => dropData d m

def ctldevHandle (d : Daemon) : Int × Daemon :=
  match d.queue with
  | [] => (0, d)
  | .event k :: _ =>
    match k.connEvent with
    | some (sid, event) => handleConn d (.event k) sid event
    | none => (0, handleOther d (.event k))
  | m :: _ => (0, handleOther d m)

/-- Where the daemon is: in the event loop, in the loop of `__kipc_call`, or in a caller
that reads the reply itself after `__kipc_call` has returned. -/
inductive Call where
  | idle
  | waiting (req : Nat) (type : Uevent)
  | fetching (req : Nat) (type : Uevent)
  deriving DecidableEq, Repr

/-- A request that has returned: what was read as its reply, or a failed read. -/
structure Returned where
  req : Nat
  type : Uevent
  answer : Option Message
  deriving DecidableEq, Repr

structure World where
  daemon : Daemon := {}
  call : Call := .idle
  /-- The request the kernel has not answered yet. -/
  owed : Option (Nat × Uevent) := none
  /-- How many requests were made, everything the kernel has put on the socket, and
  what the requests returned. -/
  requests : Nat := 0
  arrived : List Message := []
  returned : List Returned := []
  deriving DecidableEq, Repr

inductive Event where
  /-- The kernel sends an event. -/
  | arrive (k : Kevent)
  /-- The daemon makes a request. -/
  | request (type : Uevent)
  /-- The kernel answers the request that is open, or reports an interface error. -/
  | answer (r : Nat × Nat) (data : List UInt8)
  | refuse (iferror : Int)
  /-- The daemon goes on where it is, up to its next read. -/
  | turn
  /-- The daemon takes a context for itself, or gives one back. -/
  | get (sid : Nat)
  | put (sid slot : Nat)
  | addSession (s : Session)
  | removeSession (sid : Nat)
  deriving DecidableEq, Repr

def World.push (w : World) (m : Message) : World :=
  { w with
    daemon := { w.daemon with queue := w.daemon.queue ++ [m] }
    arrived := w.arrived ++ [m] }

/-- The request is over. -/
def World.finish (w : World) (req : Nat) (type : Uevent) (read : Option Message × Daemon) : World :=
  { w with
    daemon := read.2
    call := .idle
    returned := w.returned ++ [⟨req, type, read.1⟩] }

/-- One round of the loop in `__kipc_call`: peek at the front of the socket and act on
its type. -/
def kipcTurn (w : World) (req : Nat) (type : Uevent) : World :=
  match nlpayloadRead w.daemon sizeofUevent true with
  | (none, d) => w.finish req type (none, d)
  | (some (.ifError _ iferror), d) =>
    -- a caller that reads the reply itself goes on when the result is not negative
    if type.readByCaller ∧ 0 ≤ iferror then
      { w with daemon := (nlpayloadRead d sizeofUevent false).2, call := .fetching req type }
    else w.finish req type (nlpayloadRead d sizeofUevent false)
  | (some (.reply _ t _ _), d) =>
    if t = type then
      if t.readByCaller then { w with call := .fetching req type }
      else w.finish req type (nlpayloadRead d sizeofUevent false)
    else { w with daemon := (ctldevHandle d).2 }
  | (some (.event _), d) => { w with daemon := (ctldevHandle d).2 }

/-- How much the caller of `__kipc_call` reads; the statistics are cut to their buffer. -/
def fetchSize (type : Uevent) (m : Message) : Nat :=
  if type = .getStats then min m.evSize statsbufMax else m.evSize

/-- The read in `kget_stats`, `kget_chap` and `kget_host_stats`. -/
def fetchTurn (w : World) (req : Nat) (type : Uevent) : World :=
  match w.daemon.queue with
  | [] => w
  | m :: _ => w.finish req type (nlpayloadRead w.daemon (fetchSize type m) false)

/-- The daemon's next read. Handlers of events run from the event loop, so a request
is only made when the daemon is in no other one. -/
def turn (w : World) : World :=
  if w.daemon.queue = [] then w
  else
    match w.call with
    | .idle => { w with daemon := (ctldevHandle w.daemon).2 }
    | .waiting req type => kipcTurn w req type
    | .fetching req type => fetchTurn w req type

def request (w : World) (type : Uevent) : World :=
  match w.call with
  | .idle =>
    { w with
      call := .waiting w.requests type
      owed := some (w.requests, type)
      requests := w.requests + 1 }
  | _ => w

/-- The kernel answers an open request once. -/
def respond (w : World) (answer : Nat → Uevent → Message) : World :=
  match w.owed with
  | some (req, type) => { w.push (answer req type) with owed := none }
  | none => w

def step (w : World) : Event → World
  | .arrive k => w.push (.event k)
  | .request type => request w type
  | .answer r data => respond w (fun req type => .reply req type r data)
  | .refuse iferror => respond w (fun req _ => .ifError req iferror)
  | .turn => turn w
  | .get sid => { w with daemon := takeContext w.daemon sid }
  | .put sid slot => { w with daemon := iscsiEvContextPut w.daemon sid slot }
  | .addSession s =>
    { w with daemon := { w.daemon with sessions := w.daemon.sessions ++ [s] } }
  | .removeSession sid =>
    { w with
      daemon := { w.daemon with sessions := w.daemon.sessions.filter (·.id != sid) } }

def run (w : World) (es : List Event) : World := Runs.run step w es

/-- Nothing sent and nothing read, with any sessions. -/
def start (sessions : List Session) : World := { daemon := { sessions := sessions } }

end Netlink
