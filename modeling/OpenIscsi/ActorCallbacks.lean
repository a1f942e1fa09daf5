import OpenIscsi.ActorInvariant

/-!
# Callbacks of the scheduler

An actor that was put on a list is owed one call. As long as nobody deletes or
reschedules it, either the call is still owed and the actor is on a list, or it
was made once, by a poll that had read a time not before the due time.
-/

namespace ActorCallbacks

open Ring Actor ActorQueues ActorInvariant

variable {A C P : Type} [DecidableEq A]

def Queued (w : World A C P) (a : A) : Prop :=
  (w.sched.actor a).state = .waiting ∨ (w.sched.actor a).state = .scheduled

def callsOf (w : World A C P) (a : A) : List (Invocation A C P) :=
  w.invoked.filter (fun i => i.actor = a)

/-- The operation neither deletes nor reschedules the actor. Scheduling a
scheduled actor does nothing. -/
def Undisturbed (a : A) (w : World A C P) : Op A C P → Prop
  | .delete b => b ≠ a
  | .timer b _ _ _ _ => b ≠ a
  | .timerMod b _ _ _ => b ≠ a
  | .scheduleHead b _ => b = a → (w.sched.actor a).state = .scheduled
  | .schedule b _ => b = a → (w.sched.actor a).state = .scheduled
  | _ => True

def invocation (w : World A C P) (a : A) (pollTime : Nat) : Invocation A C P :=
  ⟨a, (w.sched.actor a).callback, (w.sched.actor a).data, pollTime⟩

/-- The time before which the actor is not invoked. -/
def earliest (w : World A C P) (a : A) : Nat :=
  if (w.sched.actor a).state = .waiting then (w.sched.actor a).ttschedule else 0

structure Owed (w0 : World A C P) (a : A) (w : World A C P) : Prop where
  place : (w.sched.actor a).state = .waiting ∧ (w0.sched.actor a).state = .waiting ∧
      (w.sched.actor a).ttschedule = earliest w0 a ∨
    (w.sched.actor a).state = .scheduled ∧ earliest w0 a ≤ w.pollTime
  record : invocation w a = invocation w0 a
  calls : callsOf w a = callsOf w0 a

structure Served (w0 : World A C P) (a : A) (w : World A C P) : Prop where
  idle : ¬ Queued w a
  calls : ∃ t, earliest w0 a ≤ t ∧ callsOf w a = callsOf w0 a ++ [invocation w0 a t]

variable {w0 w w' : World A C P} {a : A}

theorem Owed.queued (h : Owed w0 a w) : Queued w a := by
  rcases h.place with ⟨hst, -⟩ | ⟨hst, -⟩
  · exact .inl hst
  · exact .inr hst

/-- A step that leaves the record of the actor, its calls and the polls alone. -/
theorem Owed.frame (h : Owed w0 a w) (hactor : w'.sched.actor a = w.sched.actor a)
    (hcalls : callsOf w' a = callsOf w a) (hpoll : w.pollTime ≤ w'.pollTime) : Owed w0 a w' := by
  refine ⟨?_, ?_, hcalls.trans h.calls⟩
  · rw [hactor]
    rcases h.place with hwait | ⟨hst, hle⟩
    · exact .inl hwait
    · exact .inr ⟨hst, Nat.le_trans hle hpoll⟩
  · rw [← h.record]
    funext t
    simp only [invocation, hactor]

theorem Served.frame (h : Served w0 a w)
    (hstate : (w'.sched.actor a).state = (w.sched.actor a).state ∨
      (w'.sched.actor a).state = .notScheduled)
    (hcalls : callsOf w' a = callsOf w a) : Served w0 a w' := by
  refine ⟨fun hq => ?_, ?_⟩
  · rcases hstate with hst | hst
    · exact h.idle (by rwa [Queued, hst] at hq)
    · rcases hq with hq | hq <;> simp [hst] at hq
  · rw [hcalls]
    exact h.calls

/-! ## One step -/

/-- The actor a call is about. -/
def target : Op A C P → Option A
  | .init a _ _ => some a
  | .delete a => some a
  | .scheduleHead a _ => some a
  | .schedule a _ => some a
  | .timer a _ _ _ _ => some a
  | .timerMod a _ _ _ => some a
  | _ => none

section Steps

variable [Fintype A] {q : Queues A}

variable {op : Op A C P}

/-- Calls about one actor leave the others alone. -/
theorem step_other (w : World A C P) {b : A} (hop : target op = some b) (hb : a ≠ b) :
    (step w op).sched.actor a = w.sched.actor a ∧ (step w op).invoked = w.invoked ∧
      (step w op).pollTime = w.pollTime := by
  cases op with
  | init c callback data =>
    obtain rfl := Option.some.inj hop
    exact ⟨by simp [step, actorInit, Sched.setActor, hb], rfl, rfl⟩
  | delete c =>
    obtain rfl := Option.some.inj hop
    exact ⟨actorDelete_other w.sched hb, rfl, rfl⟩
  | scheduleHead c reading =>
    obtain rfl := Option.some.inj hop
    exact ⟨actorSchedulePrivate_other hb 0 true reading, rfl, rfl⟩
  | schedule c reading =>
    obtain rfl := Option.some.inj hop
    exact ⟨actorSchedulePrivate_other hb 0 false reading, rfl, rfl⟩
  | timer c timeoutSecs callback data reading =>
    obtain rfl := Option.some.inj hop
    refine ⟨?_, rfl, rfl⟩
    simp only [step, actorTimer]
    rw [actorSchedulePrivate_other hb]
    simp [actorInit, Sched.setActor, hb]
  | timerMod c newTimeoutSecs data reading =>
    obtain rfl := Option.some.inj hop
    refine ⟨?_, rfl, rfl⟩
    simp only [step, actorTimerMod]
    rw [actorSchedulePrivate_other hb]
    simp [Sched.setActor, hb, actorDelete_other w.sched hb]
  | pollBegin reading => cases hop
  | pollExec => cases hop
  | pollEnd => cases hop
  | fire => cases hop

/-- Scheduling a scheduled actor changes nothing. -/
theorem schedule_scheduled {s : Sched A C P} (hst : (s.actor a).state = .scheduled)
    (delaySecs : UInt32) (head : Bool) (reading : Option Nat) :
    actorSchedulePrivate s a delaySecs head reading = s := by
  cases reading with
  | none => rfl
  | some now => simp only [actorSchedulePrivate, hst]

/-- The records after the beginning of a poll. -/
theorem pollBegin_actor (h : Good w q) (reading : Option Nat)
    (hclock : ∀ now, reading = some now → w.clock ≤ now) :
    ((step w (.pollBegin reading)).sched.actor a = w.sched.actor a ∨
      (w.sched.actor a).state = .waiting ∧
        (w.sched.actor a).ttschedule ≤ (step w (.pollBegin reading)).pollTime ∧
        (step w (.pollBegin reading)).sched.actor a =
          { w.sched.actor a with state := .scheduled }) ∧
      (step w (.pollBegin reading)).invoked = w.invoked ∧
      w.pollTime ≤ (step w (.pollBegin reading)).pollTime := by
  by_cases hbusy : w.sched.pollInProgress = true
  · have hpoll : actorPollBegin w.sched reading = w.sched := by
      unfold actorPollBegin
      rw [if_pos hbusy]
    simp [step, World.polled, hbusy, hpoll]
  · have hidle : w.sched.pollInProgress = false := by simpa using hbusy
    cases reading with
    | none => simp [step, World.polled, hidle, actorPollBegin]
    | some now =>
      have hs := h.sound.later (hclock now rfl)
      obtain ⟨-, hactor, -, -⟩ := actorPollBegin_rep hs.rep hidle now hs.near
      simp only [step, World.polled, hidle, hactor a, Bool.false_eq_true, if_false]
      refine ⟨?_, trivial, Nat.le_trans h.polled (hclock now rfl)⟩
      by_cases hripe : a ∈ q.pend ∧ q.due a ≤ now
      · refine .inr ⟨(hs.rep.waiting a).mp hripe.1, ?_, ?_⟩
        · rw [← hs.rep.due a]
          exact hripe.2
        · rw [ripened, if_pos hripe]
      · exact .inl (by rw [ripened, if_neg hripe])

/-- A round of a poll does nothing, or invokes the first ready actor. -/
theorem pollExec_cases (h : Good w q) :
    step w .pollExec = w ∨ ∃ b l s', q.ready = b :: l ∧ w.sched.pollInProgress = true ∧
      s'.actor = Function.update w.sched.actor b { w.sched.actor b with state := .notScheduled } ∧
      s'.pollInProgress = true ∧
      step w .pollExec =
        { w with sched := s', invoked := w.invoked ++ [invocation w b w.pollTime] } := by
  by_cases hrun : w.sched.pollInProgress = true
  · cases hq : q.ready with
    | nil =>
      have hnone := actorPollExec_none h.sound.rep (.inr hq)
      exact .inl (by simp [step, hnone, Op.reading])
    | cons b l =>
      obtain ⟨s', hexec, -, hactor, -, hpoll⟩ := actorPollExec_rep h.sound.rep hrun hq
      refine .inr ⟨b, l, s', rfl, hrun, hactor, hpoll, ?_⟩
      simp [step, hexec, hactor, invocation, Op.reading]
  · have hnone := actorPollExec_none h.sound.rep (.inl (by simpa using hrun))
    exact .inl (by simp [step, hnone, Op.reading])

/-- What a step that does not disturb an actor does to it: nothing, make it anew, find it due or
invoke it. -/
theorem step_cases (hg : Good w q) (hop : Allowed w op) (hcalm : Undisturbed a w op) :
    ((step w op).sched.actor a = w.sched.actor a ∧ callsOf (step w op) a = callsOf w a ∧
      w.pollTime ≤ (step w op).pollTime) ∨
    (¬ Queued w a ∧ ((step w op).sched.actor a).state = .notScheduled ∧
      callsOf (step w op) a = callsOf w a) ∨
    ((w.sched.actor a).state = .waiting ∧
      (w.sched.actor a).ttschedule ≤ (step w op).pollTime ∧
      (step w op).sched.actor a = { w.sched.actor a with state := .scheduled } ∧
      callsOf (step w op) a = callsOf w a) ∨
    ((w.sched.actor a).state = .scheduled ∧ ((step w op).sched.actor a).state = .notScheduled ∧
      callsOf (step w op) a = callsOf w a ++ [invocation w a w.pollTime]) := by
  by_cases hother : ∃ b, target op = some b ∧ a ≠ b
  · obtain ⟨b, htarget, hb⟩ := hother
    obtain ⟨hactor, hcalls, hpoll⟩ := step_other w htarget hb
    exact .inl ⟨hactor, by rw [callsOf, callsOf, hcalls], Nat.le_of_eq hpoll.symm⟩
  have hself : ∀ b, target op = some b → b = a := by
    intro b hb
    by_contra hne
    exact hother ⟨b, hb, Ne.symm hne⟩
  cases op with
  | init b callback data =>
    obtain rfl := hself b rfl
    obtain ⟨hp, hr⟩ := hg.sound.rep.onNoList hop.2
    refine .inr (.inl ⟨?_, by simp [step, actorInit, Sched.setActor], rfl⟩)
    rintro (hst | hst)
    · exact hp ((hg.sound.rep.waiting b).mpr hst)
    · exact hr ((hg.sound.rep.scheduled b).mpr hst)
  | delete b => exact absurd (hself b rfl) hcalm
  | timer b timeoutSecs callback data reading => exact absurd (hself b rfl) hcalm
  | timerMod b newTimeoutSecs data reading => exact absurd (hself b rfl) hcalm
  | scheduleHead b reading =>
    obtain rfl := hself b rfl
    have hsame := schedule_scheduled (hcalm rfl) 0 true reading
    exact .inl ⟨by simp only [step, actorScheduleHead, hsame], rfl, Nat.le_refl _⟩
  | schedule b reading =>
    obtain rfl := hself b rfl
    have hsame := schedule_scheduled (hcalm rfl) 0 false reading
    exact .inl ⟨by simp only [step, actorSchedule, hsame], rfl, Nat.le_refl _⟩
  | pollBegin reading =>
    obtain ⟨hactor, hinvoked, hpoll⟩ := pollBegin_actor (a := a) hg reading hop.1
    have hcalls : callsOf (step w (.pollBegin reading)) a = callsOf w a := by
      rw [callsOf, callsOf, hinvoked]
    rcases hactor with hactor | ⟨hst, hdue, hactor⟩
    · exact .inl ⟨hactor, hcalls, hpoll⟩
    · exact .inr (.inr (.inl ⟨hst, hdue, hactor, hcalls⟩))
  | pollExec =>
    rcases pollExec_cases hg with hsame | ⟨b, l, s', hq, -, hactor, -, hstep⟩
    · rw [hsame]
      exact .inl ⟨rfl, rfl, Nat.le_refl _⟩
    · rw [hstep]
      by_cases hb : b = a
      · subst hb
        exact .inr (.inr (.inr ⟨(hg.sound.rep.scheduled b).mp (by simp [hq]), by simp [hactor],
          by simp [callsOf, invocation]⟩))
      · exact .inl ⟨by simp [hactor, Ne.symm hb], by simp [callsOf, invocation, hb], Nat.le_refl _⟩
  | pollEnd =>
    refine .inl ⟨?_, rfl, Nat.le_refl _⟩
    simp only [step, actorPollEnd]
    split <;> rfl
  | fire =>
    refine .inl ⟨?_, ?_, ?_⟩ <;> simp only [step, callsOf] <;> split <;> simp

/-- What is owed stays owed, or is served by this step. -/
theorem Owed.step (h : Owed w0 a w) (hg : Good w q) (hop : Allowed w op)
    (hcalm : Undisturbed a w op) : Owed w0 a (step w op) ∨ Served w0 a (step w op) := by
  rcases step_cases hg hop hcalm with ⟨hactor, hcalls, hpoll⟩ | ⟨hidle, -⟩ |
    ⟨hst, hdue, hactor, hcalls⟩ | ⟨hst, hnot, hcalls⟩
  · exact .inl (h.frame hactor hcalls hpoll)
  · exact absurd h.queued hidle
  · refine .inl ⟨.inr ⟨by rw [hactor], ?_⟩, ?_, hcalls.trans h.calls⟩
    · rcases h.place with ⟨-, -, htt⟩ | ⟨hst', -⟩
      · rw [← htt]
        exact hdue
      · simp [hst'] at hst
    · rw [← h.record]
      funext t
      simp only [invocation, hactor]
  · refine .inr ⟨by simp [Queued, hnot], w.pollTime, ?_, ?_⟩
    · rcases h.place with ⟨hwait, -⟩ | ⟨-, hle⟩
      · simp [hwait] at hst
      · exact hle
    · rw [hcalls, h.calls, h.record]

/-- A served actor is not invoked again until it is scheduled anew. -/
theorem Served.step (h : Served w0 a w) (hg : Good w q) (hop : Allowed w op)
    (hcalm : Undisturbed a w op) : Served w0 a (step w op) := by
  rcases step_cases hg hop hcalm with ⟨hactor, hcalls, -⟩ | ⟨-, hst, hcalls⟩ | ⟨hst, -⟩ | ⟨hst, -⟩
  · exact h.frame (.inl (by rw [hactor])) hcalls
  · exact h.frame (.inr hst) hcalls
  · exact absurd (.inl hst) h.idle
  · exact absurd (.inr hst) h.idle

/-! ## Runs -/

variable (s : Sched A C P) (b : A)

variable {now : Nat}

end Steps

end ActorCallbacks
