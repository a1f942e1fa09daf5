import OpenIscsi.Initiator
import OpenIscsi.Lib.Runs

/-!
# The pace of reopen attempts

`__session_conn_reopen` connects at once or queues another attempt with the login
timer. A timer with a delay of zero is run by the same `actor_poll`, so the delays decide
whether a session that cannot be reopened keeps the daemon busy.
-/

namespace ReopenPace

open SafeLogout (ConnState RStage)
open Initiator List

/-! ## One call -/

/-- The network configuration is set, or the call does not come to it. -/
def Configured (k : Kernel) (s : Session) (doStop redirected : Bool) : Prop :=
  (doStop = true ∧ k.stopConn = false) ∨ (redirected = false ∧ s.defTime2wait ≠ 0) ∨
    k.setNetConfig = true

/-- What a reopen leaves behind: the timers and contexts of before are gone. -/
structure Cleared (s s' : Session) : Prop where
  state : s'.state = .xptWait
  ping : s'.nopOutTimer = none
  contexts : s'.contexts = [] ∨ ∃ qtask, s'.contexts = [⟨.poll qtask, .ready⟩]
  loginTimeout : s'.loginTimeout = s.loginTimeout

variable {s s' : Session}

theorem Cleared.queued (h : Cleared s s') (k : Kernel) (qtask : Task)
    (delay : Option UInt32) : Cleared s (queueReopen k s' qtask delay).2 :=
  ⟨h.state, h.ping, h.contexts, h.loginTimeout⟩

structure Quiet (s : Session) : Prop where
  timer : ∀ w qtask, s.loginTimer = some (w, qtask) → w ≠ .ready
  ping : s.nopOutTimer = none
  contexts : ∀ c ∈ s.contexts, c.when = .ready → ∃ qtask, c.event = .poll qtask
  room : s.contexts.length ≤ 1

section Callbacks

variable {k : Kernel} (hk : k.setNetConfig = true ∧ s.loginTimeout ≠ 0)
include hk

end Callbacks

/-! ## After a reopen -/

def loginStarts (k : Kernel) (s : Session) : Bool :=
  if s.loginOffload then
    k.sessionSetParams && k.setNegParams && k.hostSetParams && (k.startConn || k.startConnExists)
  else k.sessionSetParams && k.hostSetParams && k.loginBegin && k.loginReq

/-- A connection that is made can be bound and its login begins. -/
def PollFine (k : Kernel) (s : Session) : Prop :=
  0 < k.epPoll → k.bindConn = true ∧ loginStarts k s = true

def polls (s : Session) (a : Actor) : Prop :=
  ∃ i c qtask, a = .context i ∧ s.contexts[i]? = some c ∧ c.event = .poll qtask

/-- The network configuration is set, and a connection that is made starts its login. -/
def Fine (w : Turn) (e : Actor × Kernel) : Prop :=
  e.2.setNetConfig = true ∧ ∀ s, w.session = some s → polls s e.1 → PollFine e.2 s

end ReopenPace
