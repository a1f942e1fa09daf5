import OpenIscsi.Initiator

/-!
# Logout requests

`session_logout_task` parks a request in the connection and then asks the kernel to
unbind the session, sends a logout PDU, or shuts the session down. A request that it
reports as started should be in progress, and one that it refuses should leave no trace.
-/

namespace LogoutTask

open SafeLogout (ConnState RStage)
open Initiator

/-! ## Shutdown -/

def shutdownSucceeds (k : Kernel) (s : Session) : Bool :=
  !s.hasId || ((!k.hasLeadconn || ((!stopsConn s.state || k.stopConn) && k.destroyConn)) &&
    k.destroySession)

variable (k : Kernel)

/-- None of the three calls into the kernel fails. -/
theorem shutdownSucceeds_iff (s : Session) :
    shutdownSucceeds k s = true ↔
      ¬ (s.hasId && k.hasLeadconn && stopsConn s.state && !k.stopConn) = true ∧
        ¬ (s.hasId && k.hasLeadconn && !k.destroyConn) = true ∧
        ¬ (s.hasId && !k.destroySession) = true := by
  rw [shutdownSucceeds]
  cases s.hasId <;> cases k.hasLeadconn <;> cases stopsConn s.state <;> cases k.stopConn <;>
    cases k.destroyConn <;> cases k.destroySession <;> simp

variable {s : Session}

theorem sessionConnShutdown_ok {k : Kernel} (h : shutdownSucceeds k s = true) (qtask : Option Task)
    (err : Err) :
    sessionConnShutdown k s qtask err = (true, ⟨none, .shutdown :: mgmtIpcWriteRsp qtask err⟩) := by
  obtain ⟨hstop, hconn, hsession⟩ := (shutdownSucceeds_iff k s).mp h
  rw [sessionConnShutdown, if_neg hstop, if_neg hconn, if_neg hsession]

/-- A shutdown that fails keeps the session with its request. -/
theorem sessionConnShutdown_fail {k : Kernel} (h : ¬ shutdownSucceeds k s = true)
    (qtask : Option Task) (err : Err) :
    ∃ s', sessionConnShutdown k s qtask err = (false, ⟨some s', [.shutdown]⟩) ∧
      s'.logoutQtask = s.logoutQtask := by
  unfold sessionConnShutdown
  by_cases hstop : (s.hasId && k.hasLeadconn && stopsConn s.state && !k.stopConn) = true
  · exact ⟨s, if_pos hstop, rfl⟩
  rw [if_neg hstop]
  by_cases hconn : (s.hasId && k.hasLeadconn && !k.destroyConn) = true
  · exact ⟨s, if_pos hconn, rfl⟩
  rw [if_neg hconn]
  by_cases hsession : (s.hasId && !k.destroySession) = true
  · exact ⟨_, if_pos hsession, rfl⟩
  exact absurd ((shutdownSucceeds_iff k s).mpr ⟨hstop, hconn, hsession⟩) h

/-! ## What a logout request promises -/

def logoutTimers (s : Session) : Nat := s.contexts.countP (fun c => c.event = .logoutTimer)

/-- The request was answered, the unbind was accepted, or the logout was sent and a timer
for it was set. -/
def Started (before : Option Session) (n : Nat) (t : Turn) : Prop :=
  .respond n .success ∈ t.out ∨ .unbound ∈ t.out ∨
    (.logoutSent ∈ t.out ∧ ∃ s, t.session = some s ∧ s.state = .inLogout ∧
      ∀ s0, before = some s0 → logoutTimers s0 < logoutTimers s)

/-- What is said about a logout request by its return value. -/
structure Honest (before : Option Session) (n : Nat) (e : LogoutEnd) : Prop where
  started : e.rc = .success → Started before n e.turn
  /-- A logout that was sent is not followed by a shutdown. -/
  waits : .logoutSent ∈ e.turn.out → .shutdown ∉ e.turn.out
  /-- A refused request leaves the connection and the session as they were. -/
  unchanged : e.rc ≠ .success → ∀ s, before = some s →
    ∃ s', e.turn.session = some s' ∧ s'.logoutQtask = s.logoutQtask ∧ s'.state = s.state ∧
      s'.rStage = s.rStage

/-- The request is refused before anything is done for it. -/
def refused (inUse : Bool) : Option Session → Bool
  | none => true
  | some s =>
    (s.notifyQtask.isSome && s.state == .xptWait && s.rStage == .sessionReopen) ||
      invalidState s || inUse || s.logoutQtask.isSome

/-- The kernel unbinds the session; or there is nothing to log out of, or the adapter does
it, and the kernel takes the session down. -/
def Handled (k : Kernel) (s : Session) : Prop :=
  (s.state = .loggedIn ∧ k.unbindSession = true) ∨
    ((s.state ≠ .loggedIn ∨ s.loginOffload = true) ∧ shutdownSucceeds k s = true)

variable {n : Nat}

theorem honest_refused {rc : Err} (h : rc ≠ .success) : Honest (some s) n ⟨rc, ⟨some s, []⟩⟩ := by
  refine ⟨fun hok => absurd hok h, fun hsent => ?_, fun _ s' hs => ⟨s, rfl, ?_⟩⟩
  · cases hsent
  · obtain rfl := Option.some.inj hs
    exact ⟨rfl, rfl, rfl⟩

/-- The end in `session_conn_shutdown`, without a logout before it. -/
theorem honest_shutdown {k : Kernel} (hfree : s.logoutQtask = none) :
    Honest (some s) n
        (logoutShutdown k { s with logoutQtask := some (.request n) } (.request n) []) ↔
      shutdownSucceeds k s = true := by
  have hsame : shutdownSucceeds k { s with logoutQtask := some (.request n) } =
      shutdownSucceeds k s := rfl
  constructor
  · intro h
    by_contra hfail
    rw [← hsame] at hfail
    obtain ⟨s', heq, hq⟩ := sessionConnShutdown_fail hfail (some (.request n)) .success
    rw [logoutShutdown, heq] at h
    obtain ⟨s'', hs'', hq'', -⟩ := h.unchanged (fun h0 => by cases h0) s rfl
    obtain rfl := Option.some.inj hs''
    rw [hq'', hfree] at hq
    cases hq
  · intro hok
    rw [← hsame] at hok
    rw [logoutShutdown, sessionConnShutdown_ok hok]
    refine ⟨fun _ => .inl ?_, fun hsent => ?_, fun h => absurd rfl h⟩
    · simp [mgmtIpcWriteRsp]
    · simp [mgmtIpcWriteRsp] at hsent

/-- The three ways `iscsi_send_logout` can end on a session that is logged in. -/
theorem iscsiSendLogout_cases (hstate : s.state = .loggedIn) :
    iscsiSendLogout k s = (.eio, ⟨some s, []⟩) ∨
      iscsiSendLogout k s = (.enomem, ⟨some { s with state := .inLogout }, [.logoutSent]⟩) ∨
      ∃ s', iscsiSendLogout k s = (.sent, ⟨some s', [.logoutSent]⟩) := by
  rw [iscsiSendLogout, if_neg (by simp [hstate])]
  by_cases hpdu : k.sendPdu = true
  · right
    rw [if_neg (by simp [hpdu])]
    unfold schedEvContext
    by_cases hroom : s.contexts.length < contextPoolMax
    · right
      simp only [if_pos hroom]
      exact ⟨_, rfl⟩
    · left
      simp only [if_neg hroom]
  · left
    rw [if_pos (by simp [hpdu])]

theorem shutdown_mem (s : Session) (qtask : Option Task) (err : Err) :
    .shutdown ∈ (sessionConnShutdown k s qtask err).2.out := by
  by_cases h : shutdownSucceeds k s = true
  · rw [sessionConnShutdown_ok h]
    simp
  · obtain ⟨s', heq, -⟩ := sessionConnShutdown_fail h qtask err
    rw [heq]
    simp

/-- A session that is logged in and has to send the logout itself. -/
theorem not_honest_send {k : Kernel} (hstate : s.state = .loggedIn)
    (hunbind : k.unbindSession = false) (hoffload : s.loginOffload = false) :
    ¬ Honest (some s) n (startLogout k s (.request n)) := by
  intro h
  have hstate' : ({ s with logoutQtask := some (.request n) } : Session).state = .loggedIn := hstate
  rw [startLogout, if_pos hstate, if_neg (by simp [hunbind]), if_neg (by simp [hoffload])] at h
  rcases iscsiSendLogout_cases k hstate' with heq | heq | ⟨s', heq⟩
  · -- not sent, and reported as started
    simp only [heq] at h
    have hstarted := h.started rfl
    simp [Started] at hstarted
  · -- sent without a timer, and reported as started
    simp only [heq] at h
    have hstarted := h.started rfl
    simp [Started, logoutTimers] at hstarted
  · -- sent, and shut down at once
    simp only [heq] at h
    refine h.waits ?_ ?_
    · simp [logoutShutdown]
    · exact List.mem_append.mpr (.inr (shutdown_mem _ _ _ _))

theorem honest_start_iff {k : Kernel} (hfree : s.logoutQtask = none) :
    Honest (some s) n (startLogout k s (.request n)) ↔ Handled k s := by
  by_cases hstate : s.state = .loggedIn
  · by_cases hunbind : k.unbindSession = true
    · refine iff_of_true ?_ (.inl ⟨hstate, hunbind⟩)
      rw [startLogout, if_pos hstate, if_pos hunbind]
      refine ⟨fun _ => .inr (.inl (by simp)), fun hsent => ?_, fun h => absurd rfl h⟩
      simp at hsent
    · by_cases hoffload : s.loginOffload = true
      · rw [startLogout, if_pos hstate, if_neg hunbind, if_pos hoffload, honest_shutdown hfree,
          Handled]
        exact ⟨fun h => .inr ⟨.inr hoffload, h⟩, fun h => h.elim (fun h0 => absurd h0.2 hunbind) And.right⟩
      · refine iff_of_false (not_honest_send hstate (by simpa using hunbind) (by simpa using hoffload)) ?_
        rintro (⟨-, h⟩ | ⟨h | h, -⟩)
        · exact hunbind h
        · exact h hstate
        · exact hoffload h
  · rw [startLogout, if_neg hstate, honest_shutdown hfree, Handled]
    exact ⟨fun h => .inr ⟨.inl hstate, h⟩, fun h => h.elim (fun h0 => absurd h0.1 hstate) And.right⟩

/-- A request that is refused is not started. -/
theorem sessionLogoutTask_refused {inUse : Bool} (h : refused inUse (some s) = true) (k : Kernel)
    (qtask : Task) :
    ∃ rc, rc ≠ .success ∧ sessionLogoutTask inUse k qtask (some s) = ⟨rc, ⟨some s, []⟩⟩ := by
  rw [sessionLogoutTask]
  rw [refused] at h
  by_cases hconn : (s.notifyQtask.isSome && s.state == .xptWait && s.rStage == .sessionReopen) = true
  · exact ⟨_, by decide, if_pos hconn⟩
  rw [if_neg hconn]
  by_cases hinvalid : invalidState s = true
  · exact ⟨_, by decide, if_pos hinvalid⟩
  rw [if_neg hinvalid]
  by_cases huse : inUse = true
  · exact ⟨_, by decide, if_pos huse⟩
  rw [if_neg huse]
  refine ⟨_, by decide, if_pos ?_⟩
  simpa [hconn, hinvalid, huse] using h

theorem sessionLogoutTask_start {inUse : Bool} (h : ¬ refused inUse (some s) = true) (k : Kernel)
    (qtask : Task) :
    sessionLogoutTask inUse k qtask (some s) = startLogout k s qtask ∧ s.logoutQtask = none := by
  rw [refused] at h
  simp only [Bool.or_eq_true, not_or] at h
  obtain ⟨⟨⟨hconn, hinvalid⟩, huse⟩, hfree⟩ := h
  rw [sessionLogoutTask, if_neg hconn, if_neg hinvalid, if_neg huse, if_neg hfree]
  exact ⟨rfl, by simpa using hfree⟩

/-- A logout request does what its return value says if and only if it is refused at once, the
kernel unbinds the session, or no logout PDU has to be sent and the kernel takes the session
down. -/
theorem logout_honest_iff (inUse : Bool) (k : Kernel) (n : Nat) (before : Option Session) :
    Honest before n (sessionLogoutTask inUse k (.request n) before) ↔
      (refused inUse before = true ∨ ∃ s, before = some s ∧ Handled k s) := by
  cases before with
  | none =>
    refine iff_of_true ⟨fun h => ?_, fun h => ?_, fun _ s hs => ?_⟩ (.inl rfl)
    · cases h
    · cases h
    · cases hs
  | some s =>
    by_cases hrefused : refused inUse (some s) = true
    · obtain ⟨rc, hrc, heq⟩ := sessionLogoutTask_refused hrefused k (.request n)
      rw [heq]
      exact iff_of_true (honest_refused hrc) (.inl hrefused)
    · obtain ⟨heq, hfree⟩ := sessionLogoutTask_start hrefused k (.request n)
      rw [heq, honest_start_iff hfree]
      constructor
      · exact fun h => .inr ⟨s, rfl, h⟩
      · rintro (h | ⟨s', hs, h⟩)
        · exact absurd h hrefused
        · rwa [Option.some.inj hs]

def loggedIn : Session := { hasId := true, state := .loggedIn }

/-- The kernel refuses the unbind and the PDU is not sent: the request is reported as started,
and nothing is in progress. -/
theorem unsent_logout_reported :
    sessionLogoutTask false { unbindSession := false, sendPdu := false } (.request 1) (some loggedIn) =
        ⟨.success, ⟨some { loggedIn with logoutQtask := some (.request 1) }, []⟩⟩ ∧
      ¬ Honest (some loggedIn) 1
        (sessionLogoutTask false { unbindSession := false, sendPdu := false } (.request 1)
          (some loggedIn)) := by
  refine ⟨by decide, fun h => ?_⟩
  have hstarted := h.started (by decide)
  revert hstarted
  simp [Started, sessionLogoutTask, startLogout, iscsiSendLogout, loggedIn, invalidState]

end LogoutTask
