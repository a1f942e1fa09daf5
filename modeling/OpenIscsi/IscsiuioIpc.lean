import OpenIscsi.Lib.CString

/-!
# The control socket of iscsiuio

`iscsid_loop` of `iscsid_ipc.c` accepts connections, asks for the user at the other
end and hands the connection to `process_iscsid_broadcast`. The list of what
`accept` returns is the run of the loop.
-/

namespace IscsiuioIpc

open CString List

/-! ## One request -/

/-- What a client writes: the header, if it is complete, and how many bytes follow. -/
structure Request where
  header : Option (Nat × Nat)
  payload : Nat
  deriving DecidableEq, Repr

/-- `iscsid_uip_mgmt_ipc_err_e`, as far as it is answered. -/
inductive RspErr where
  | ok | err | deviceUp | deviceInitializing
  deriving DecidableEq, Repr

structure Rsp where
  command : Nat
  err : RspErr
  pingSc : Int
  deriving DecidableEq, Repr

def getIface : Nat := 1
def ping : Nat := 2
def eagain : Int := 11

/-- The answer for a result of `parse_iface`. -/
def rspErr (rc : Int) : RspErr :=
  if rc = 0 then .deviceUp else if rc = -eagain then .deviceInitializing else .err

/-- `fread` of one object of the announced length gives it whole or nothing. -/
def readPayload (request : Request) (payloadLen : Nat) : Bool :=
  payloadLen ≠ 0 ∧ payloadLen ≤ request.payload

/-- `process_iscsid_broadcast`: the answer it writes, if it gets that far. It always
closes the connection. `sizeofU` is the room for a payload. -/
def processIscsidBroadcast (sizeofU : Nat) (parseIface : Bool → Int) (request : Request) :
    Option Rsp :=
  match request.header with
  | none => none
  | some (cmd, payloadLen) =>
    if sizeofU < payloadLen then none
    else if cmd = getIface then
      if readPayload request payloadLen then some ⟨cmd, rspErr (parseIface false), 0⟩ else none
    else if cmd = ping then
      if readPayload request payloadLen then
        some ⟨cmd, rspErr (parseIface true), parseIface true⟩
      else none
    else some ⟨cmd, .ok, 0⟩

/-! ## The loop -/

/-- A connection: the user of the process that made it and what it asks for. -/
structure Connection where
  uid : Nat
  request : Request
  deriving DecidableEq, Repr

inductive Accept where
  | connection (c : Connection)
  | again
  | interrupted
  | failed
  deriving DecidableEq, Repr

/-- The daemon's sockets. -/
inductive Socket where
  | listening
  | accepted (c : Connection)
  deriving DecidableEq, Repr

/-- What the loop finds around it: the user of the process that called `listen`, the
password database and what a request needs. -/
structure Env where
  listener : Nat
  getpwuid : Nat → Option (List UInt8)
  sizeofU : Nat
  parseIface : Bool → Int

def peercred (env : Env) : Socket → Nat
  | .listening => env.listener
  | .accepted c => c.uid

def peeruserMax : Nat := 64

def mgmtPeeruser (env : Env) (sock : Socket) : Option (List UInt8) :=
  (env.getpwuid (peercred env sock)).map (fun name => (strlcpy name peeruserMax).1)

/-- The state of the loop: connections served with their answers, connections
refused, and whether it still runs. -/
structure Loop where
  served : List (Connection × Option Rsp)
  refused : List Connection
  running : Bool
  deriving DecidableEq, Repr

def iscsidLoop (env : Env) : List Accept → Loop → Loop
  | [], s => s
  | .again :: rest, s => iscsidLoop env rest s
  | .failed :: rest, s => iscsidLoop env rest s
  | .interrupted :: _, s => { s with running := false }
  | .connection c :: rest, s =>
    -- the credentials are those of the listening socket, not of the accepted one
    if mgmtPeeruser env .listening ≠ some (ascii "root") then
      { s with refused := s.refused ++ [c], running := false }
    else
      iscsidLoop env rest
        { s with served :=
            s.served ++ [(c, processIscsidBroadcast env.sizeofU env.parseIface c.request)] }

def start : Loop := ⟨[], [], true⟩

/-! ## Only root -/

/-- The connections made until the loop is told to end. -/
def connections : List Accept → List Connection
  | [] => []
  | .again :: rest => connections rest
  | .failed :: rest => connections rest
  | .interrupted :: _ => []
  | .connection c :: rest => c :: connections rest

def byRoot (c : Connection) : Bool := c.uid = 0

/-- A run that goes on only adds connections. -/
theorem mem_connections_take (accepts : List Accept) (n : Nat) (c : Connection)
    (h : c ∈ connections (accepts.take n)) : c ∈ connections accepts := by
  induction accepts generalizing n with
  | nil =>
    rw [take_nil] at h
    exact h
  | cons a accepts ih =>
    cases n with
    | zero => exact nomatch h
    | succ n =>
      cases a with
      | again => exact ih n h
      | failed => exact ih n h
      | interrupted => exact h
      | connection d =>
        cases mem_cons.mp h with
        | inl heq => exact heq ▸ mem_cons_self
        | inr hmem => exact mem_cons_of_mem d (ih n hmem)

/-- Exactly the connections of root are served, the others refused, and the loop runs
until it is told to end. -/
def RootOnly (accepts : List Accept) (s : Loop) : Prop :=
  s.served.map Prod.fst = (connections accepts).filter byRoot ∧
    s.refused = (connections accepts).filter (fun c => !byRoot c) ∧
    (s.running = true ↔ Accept.interrupted ∉ accepts)

section Listener

variable {env : Env}

/-- The name is the root's exactly for root, in a database that names only root so. -/
theorem mgmtPeeruser_root (hpw : ∀ uid, (env.getpwuid uid).map cstr = some (ascii "root") ↔ uid = 0)
    (sock : Socket) :
    mgmtPeeruser env sock = some (ascii "root") ↔ peercred env sock = 0 := by
  rw [← hpw]
  unfold mgmtPeeruser
  cases env.getpwuid (peercred env sock) with
  | none => exact iff_of_false (fun h => (nomatch h)) (fun h => (nomatch h))
  | some name =>
    rw [Option.map_some, Option.map_some, Option.some.injEq, Option.some.injEq]
    unfold strlcpy
    dsimp only
    have hlen : (ascii "root").length = 4 := by decide
    constructor
    · intro h
      -- a stored name that is cut off is longer than `root`
      have hshort : (cstr name).length ≤ peeruserMax - 1 := by
        have hcut := congrArg List.length h
        rw [length_take, hlen] at hcut
        unfold peeruserMax at hcut ⊢
        omega
      rw [take_of_length_le hshort] at h
      exact h
    · intro h
      rw [h, take_of_length_le (by decide)]

/-- With the listener root every connection is served. -/
theorem iscsidLoop_root (accepts : List Accept)
    (hroot : mgmtPeeruser env .listening = some (ascii "root") ∨ connections accepts = [])
    (s : Loop) (hs : s.running = true) :
    (iscsidLoop env accepts s).served.map Prod.fst = s.served.map Prod.fst ++ connections accepts ∧
      (iscsidLoop env accepts s).refused = s.refused ∧
      ((iscsidLoop env accepts s).running = true ↔ Accept.interrupted ∉ accepts) := by
  induction accepts generalizing s with
  | nil => exact ⟨(append_nil _).symm, rfl, iff_of_true hs not_mem_nil⟩
  | cons a accepts ih =>
    cases a with
    | again =>
      obtain ⟨h1, h2, h3⟩ := ih hroot s hs
      exact ⟨h1, h2, h3.trans (by simp)⟩
    | failed =>
      obtain ⟨h1, h2, h3⟩ := ih hroot s hs
      exact ⟨h1, h2, h3.trans (by simp)⟩
    | interrupted =>
      exact ⟨(append_nil _).symm, rfl, iff_of_false Bool.false_ne_true (by simp)⟩
    | connection c =>
      have hname := hroot.resolve_right (fun h => (nomatch h))
      rw [iscsidLoop, if_neg (not_not.mpr hname), connections]
      obtain ⟨h1, h2, h3⟩ := ih (Or.inl hname) { s with served := s.served ++
        [(c, processIscsidBroadcast env.sizeofU env.parseIface c.request)] } hs
      refine ⟨?_, h2, h3.trans (by simp)⟩
      rw [h1, map_append, append_assoc]
      rfl

/-- With another listener the first connection ends the loop. -/
theorem iscsidLoop_other (hother : mgmtPeeruser env .listening ≠ some (ascii "root"))
    (accepts : List Accept) (hsome : connections accepts ≠ []) (s : Loop) :
    ∃ n, (iscsidLoop env (accepts.take n) s).running = false ∧
      Accept.interrupted ∉ accepts.take n := by
  induction accepts with
  | nil => exact absurd rfl hsome
  | cons a accepts ih =>
    cases a with
    | again =>
      obtain ⟨n, hrun, hint⟩ := ih hsome
      exact ⟨n + 1, hrun, by simpa using hint⟩
    | failed =>
      obtain ⟨n, hrun, hint⟩ := ih hsome
      exact ⟨n + 1, hrun, by simpa using hint⟩
    | interrupted => exact absurd rfl hsome
    | connection c =>
      refine ⟨1, ?_, by simp⟩
      rw [take_succ_cons, iscsidLoop, if_pos hother]

end Listener

/-- In every state of every run of the loop exactly the connections of root have been
served and the others refused, if and only if all connections are made by root and
root called `listen`, or there are none. -/
theorem root_commands_iff (env : Env)
    (hpw : ∀ uid, (env.getpwuid uid).map cstr = some (ascii "root") ↔ uid = 0)
    (accepts : List Accept) :
    (∀ n, RootOnly (accepts.take n) (iscsidLoop env (accepts.take n) start)) ↔
      (∀ c ∈ connections accepts, c.uid = 0) ∧ (env.listener = 0 ∨ connections accepts = []) := by
  have hroot := mgmtPeeruser_root hpw .listening
  have hall : ∀ cs : List Connection, cs.filter byRoot = cs ↔ ∀ c ∈ cs, c.uid = 0 := by
    intro cs
    rw [filter_eq_self]
    simp only [byRoot, decide_eq_true_iff]
  constructor
  · intro h
    by_cases hlist : mgmtPeeruser env .listening = some (ascii "root")
    · obtain ⟨hserved, _, _⟩ := h accepts.length
      rw [take_length] at hserved
      rw [(iscsidLoop_root accepts (Or.inl hlist) start rfl).1] at hserved
      exact ⟨(hall _).mp hserved.symm, Or.inl (hroot.mp hlist)⟩
    · have hnone : connections accepts = [] := by
        by_contra hsome
        obtain ⟨n, hrun, hint⟩ := iscsidLoop_other hlist accepts hsome start
        rw [(h n).2.2.mpr hint] at hrun
        exact nomatch hrun
      rw [hnone]
      exact ⟨fun c hc => (nomatch hc), Or.inr rfl⟩
  · rintro ⟨huid, hlist⟩ n
    have hsub := mem_connections_take accepts n
    have hgoes : mgmtPeeruser env .listening = some (ascii "root") ∨
        connections (accepts.take n) = [] := by
      cases hlist with
      | inl hzero => exact Or.inl (hroot.mpr hzero)
      | inr hnone =>
        rw [hnone] at hsub
        exact Or.inr (eq_nil_iff_forall_not_mem.mpr (fun c hc => (nomatch hsub c hc)))
    have huids := fun c hc => huid c (hsub c hc)
    obtain ⟨hserved, hrefused, hrun⟩ := iscsidLoop_root (accepts.take n) hgoes start rfl
    refine ⟨?_, ?_, hrun⟩
    · rw [hserved, (hall _).mpr huids]
      rfl
    · rw [hrefused, filter_eq_nil_iff.mpr]
      · rfl
      · intro c hc
        simp only [byRoot, huids c hc, decide_true, Bool.not_true, Bool.false_eq_true,
          not_false_eq_true]

def rootDaemon : Env :=
  ⟨0, fun uid => if uid = 0 then some (ascii "root") else if uid = 1000 then some (ascii "user")
    else none, 1024, fun _ => 0⟩

theorem rootDaemon_getpwuid (uid : Nat) :
    (rootDaemon.getpwuid uid).map cstr = some (ascii "root") ↔ uid = 0 := by
  unfold rootDaemon
  dsimp only
  split
  · rename_i h
    exact iff_of_true (by decide) h
  · rename_i h
    split
    · exact iff_of_false (by decide) h
    · exact iff_of_false (fun hn => (nomatch hn)) h

def pingRequest : Request := ⟨some (ping, 8), 8⟩

def rootConnects : List Accept :=
  [.connection ⟨0, pingRequest⟩, .again, .connection ⟨0, pingRequest⟩]

/-- Both are served. -/
theorem root_served :
    RootOnly rootConnects (iscsidLoop rootDaemon rootConnects start) ∧
      (iscsidLoop rootDaemon rootConnects start).served.length = 2 :=
  ⟨(root_commands_iff rootDaemon rootDaemon_getpwuid rootConnects).mpr
    ⟨by decide, Or.inl rfl⟩ 3, by decide⟩

/-- A connection of another user is served too. -/
theorem user_served :
    (iscsidLoop rootDaemon [.connection ⟨1000, pingRequest⟩] start).served =
        [(⟨1000, pingRequest⟩, some ⟨ping, .deviceUp, 0⟩)] ∧
      ¬ RootOnly [.connection ⟨1000, pingRequest⟩]
        (iscsidLoop rootDaemon [.connection ⟨1000, pingRequest⟩] start) := by
  have hserved : (iscsidLoop rootDaemon [.connection ⟨1000, pingRequest⟩] start).served =
      [(⟨1000, pingRequest⟩, some ⟨ping, .deviceUp, 0⟩)] := by
    decide
  refine ⟨hserved, fun h => ?_⟩
  have hroot := h.1
  rw [hserved] at hroot
  exact absurd hroot (by decide)

end IscsiuioIpc
