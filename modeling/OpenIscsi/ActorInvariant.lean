import OpenIscsi.ActorQueues

/-!
# The scheduler through whole runs

The links of `actor.c` hold two lists after every call: the waiting actors in
the order of their due times and the ready ones. Whoever waits is covered by
the one alarm of the process, or the alarm was delivered and `actor_poll` has
not looked at the clock since.
-/

namespace ActorInvariant

open Ring Actor ActorQueues

variable {A C P : Type} [DecidableEq A]

/-- The scheduler holds the queues `q`, its alarm covers them, and every due time
is within reach of an `alarm` call. -/
structure Sound (s : Sched A C P) (q : Queues A) (clock : Nat) (fired : Bool) : Prop where
  rep : Rep s q
  near : ∀ b ∈ q.pend, q.due b < clock + 2 ^ 32
  watched : Watched s.alarm fired q

section Calls

variable {s : Sched A C P} {q : Queues A} {clock : Nat} {fired : Bool}

omit [DecidableEq A] in
theorem Sound.later (h : Sound s q clock fired) {now : Nat} (hnow : clock ≤ now) :
    Sound s q now fired :=
  ⟨h.rep, fun b hb => Nat.lt_of_lt_of_le (h.near b hb) (by omega), h.watched⟩

theorem Sound.init (h : Sound s q clock fired) {a : A} (hp : a ∉ q.pend) (hr : a ∉ q.ready)
    (callback : C) (data : P) : Sound (actorInit s a callback data) q clock fired :=
  ⟨actorInit_rep h.rep hp hr callback data, h.near, h.watched⟩

theorem Sound.delete (h : Sound s q clock fired) (a : A) :
    Sound (actorDelete s a) (q.remove a) clock fired := by
  obtain ⟨hrep, halarm⟩ := actorDelete_rep h.rep a
  refine ⟨hrep, fun b hb => h.near b (List.mem_of_mem_erase hb), fun hne => ?_⟩
  rw [halarm hne]
  exact h.watched.remove a hne

/-- The argument of a callback plays no part. -/
theorem Sound.setData (h : Sound s q clock fired) (a : A) (data : P) :
    Sound (s.setActor a { s.actor a with data := data }) q clock fired := by
  have hsame : ∀ b, ((s.setActor a { s.actor a with data := data }).actor b).state =
        (s.actor b).state ∧
      ((s.setActor a { s.actor a with data := data }).actor b).ttschedule =
        (s.actor b).ttschedule := by
    intro b
    by_cases hb : b = a
    · subst hb
      simp [Sched.setActor]
    · simp [Sched.setActor, hb]
  refine ⟨⟨h.rep.rings, fun b => ?_, fun b => ?_, fun b => ?_, h.rep.sorted⟩, h.near, h.watched⟩
  · rw [(hsame b).1]
    exact h.rep.waiting b
  · rw [(hsame b).1]
    exact h.rep.scheduled b
  · rw [(hsame b).2]
    exact h.rep.due b

/-- A due time set now is within reach. -/
theorem schedule_near {now : Nat} (h : ∀ b ∈ q.pend, q.due b < now + 2 ^ 32) (a : A)
    (delaySecs : UInt32) (head : Bool) :
    ∀ b ∈ (q.schedule a delaySecs head now).pend,
      (q.schedule a delaySecs head now).due b < now + 2 ^ 32 := by
  intro b hb
  have hlt := delaySecs.toNat_lt
  by_cases hd : delaySecs = 0
  · rw [Queues.schedule, if_pos hd] at hb ⊢
    exact h b (List.mem_of_mem_erase hb)
  · rw [Queues.schedule, if_neg hd] at hb ⊢
    by_cases hba : b = a
    · subst hba
      simp only [Queues.arm, Function.update_self]
      omega
    · rcases DueQueue.mem_insertion.mp hb with rfl | hb
      · exact absurd rfl hba
      · simp only [Queues.arm, Function.update_of_ne hba]
        exact h b (List.mem_of_mem_erase hb)

def reschedule (s : Sched A C P) (q : Queues A) (a : A) (delaySecs : UInt32) (head : Bool) :
    Option Nat → Queues A
  | none => q
  | some now =>
    if (s.actor a).state = .waiting ∨ (s.actor a).state = .notScheduled then
      q.schedule a delaySecs head now
    else q

theorem Sound.schedule [Fintype A] (h : Sound s q clock fired) (a : A) (delaySecs : UInt32)
    (head : Bool) (reading : Option Nat) (hclock : ∀ now, reading = some now → clock ≤ now) :
    Sound (actorSchedulePrivate s a delaySecs head reading) (reschedule s q a delaySecs head reading)
      (reading.getD clock) fired := by
  cases reading with
  | none => exact h
  | some now =>
    have h := h.later (hclock now rfl)
    by_cases ha : (s.actor a).state = .waiting ∨ (s.actor a).state = .notScheduled
    · obtain ⟨hrep, hw⟩ := actorSchedulePrivate_rep h.rep ha delaySecs head now h.watched
      rw [reschedule, if_pos ha]
      exact ⟨hrep, schedule_near h.near a delaySecs head, hw⟩
    · have hsame : actorSchedulePrivate s a delaySecs head (some now) = s := by
        unfold actorSchedulePrivate
        cases hst : (s.actor a).state with
        | waiting => exact absurd (.inl hst) ha
        | notScheduled => exact absurd (.inr hst) ha
        | scheduled => rfl
        | invalid => rfl
      rw [reschedule, if_neg ha, hsame]
      exact h

end Calls

/-! ## One step -/

section Steps

variable [Fintype A]

def nextQueues (w : World A C P) (q : Queues A) : Op A C P → Queues A
  | .init _ _ _ => q
  | .delete a => q.remove a
  | .scheduleHead a reading => reschedule w.sched q a 0 true reading
  | .schedule a reading => reschedule w.sched q a 0 false reading
  | .timer a timeoutSecs callback data reading =>
    reschedule (actorInit w.sched a callback data) q a timeoutSecs false reading
  | .timerMod a newTimeoutSecs _ reading =>
    reschedule (actorDelete w.sched a) (q.remove a) a newTimeoutSecs false reading
  | .pollBegin reading =>
    if w.sched.pollInProgress then q
    else
      match reading with
      | none => q
      | some now => q.ripen now
  | .pollExec => if w.sched.pollInProgress then { q with ready := q.ready.tail } else q
  | .pollEnd => q
  | .fire => q

/-- The queues behind a state of a run. -/
structure Good (w : World A C P) (q : Queues A) : Prop where
  sound : Sound w.sched q w.clock w.fired
  polled : w.pollTime ≤ w.clock

variable {w : World A C P} {q : Queues A}

theorem Good.pollBegin (h : Good w q) (reading : Option Nat)
    (hclock : ∀ now, reading = some now → w.clock ≤ now) :
    Good (step w (.pollBegin reading)) (nextQueues w q (.pollBegin reading)) := by
  by_cases hbusy : w.sched.pollInProgress = true
  · have hpoll : ∀ reading, actorPollBegin w.sched reading = w.sched := fun _ => by
      unfold actorPollBegin
      rw [if_pos hbusy]
    have hclk : w.clock ≤ reading.getD w.clock := by
      cases reading with
      | none => exact Nat.le_refl _
      | some now => exact hclock now rfl
    simp only [step, nextQueues, World.polled, hbusy, if_true, hpoll, Op.reading]
    exact ⟨h.sound.later hclk, Nat.le_trans h.polled hclk⟩
  · have hidle : w.sched.pollInProgress = false := by simpa using hbusy
    cases reading with
    | none =>
      simp only [step, nextQueues, World.polled, hidle, actorPollBegin, Op.reading]
      exact h
    | some now =>
      have hs := h.sound.later (hclock now rfl)
      obtain ⟨hrep, -, -, hw⟩ := actorPollBegin_rep hs.rep hidle now hs.near
      simp only [step, nextQueues, World.polled, hidle, Op.reading]
      refine ⟨⟨hrep, fun b hb => hs.near b ((List.dropWhile_sublist _).subset hb), hw⟩,
        Nat.le_refl _⟩

theorem Good.pollExec (h : Good w q) :
    Good (step w .pollExec) (nextQueues w q .pollExec) := by
  by_cases hrun : w.sched.pollInProgress = true
  · cases hq : q.ready with
    | nil =>
      have hnone := actorPollExec_none h.sound.rep (.inr hq)
      have hsame : { q with ready := q.ready.tail } = q := by
        cases q
        simp only at hq
        simp [hq]
      simp only [step, hnone, nextQueues, hrun, if_true, hsame]
      exact h
    | cons a l =>
      obtain ⟨s', hexec, hrep, -, halarm, -⟩ := actorPollExec_rep h.sound.rep hrun hq
      simp only [step, hexec, nextQueues, hrun, if_true, hq, List.tail_cons]
      refine ⟨⟨hrep, h.sound.near, ?_⟩, h.polled⟩
      rw [halarm]
      exact h.sound.watched
  · have hnone := actorPollExec_none h.sound.rep (.inl (by simpa using hrun))
    simp only [step, hnone, nextQueues, hrun]
    exact h

/-- Every operation does to the queues what its name says. -/
theorem step_good (h : Good w q) (op : Op A C P) (hop : Allowed w op) :
    Good (step w op) (nextQueues w q op) := by
  obtain ⟨hclock, hallow⟩ := hop
  have hpoll : ∀ reading, (∀ now, reading = some now → w.clock ≤ now) →
      w.pollTime ≤ reading.getD w.clock := by
    intro reading hle
    cases reading with
    | none => exact h.polled
    | some now => exact Nat.le_trans h.polled (hle now rfl)
  cases op with
  | init a callback data =>
    obtain ⟨hp, hr⟩ := h.sound.rep.onNoList hallow
    exact ⟨h.sound.init hp hr callback data, h.polled⟩
  | delete a => exact ⟨h.sound.delete a, h.polled⟩
  | scheduleHead a reading =>
    exact ⟨h.sound.schedule a 0 true reading hclock, hpoll reading hclock⟩
  | schedule a reading => exact ⟨h.sound.schedule a 0 false reading hclock, hpoll reading hclock⟩
  | timer a timeoutSecs callback data reading =>
    obtain ⟨hp, hr⟩ := h.sound.rep.onNoList hallow
    exact ⟨(h.sound.init hp hr callback data).schedule a timeoutSecs false reading hclock,
      hpoll reading hclock⟩
  | timerMod a newTimeoutSecs data reading =>
    have hs := ((h.sound.delete a).setData a data).schedule a newTimeoutSecs false reading hclock
    have hstate : (((actorDelete w.sched a).setActor a
        { (actorDelete w.sched a).actor a with data := data }).actor a).state =
        ((actorDelete w.sched a).actor a).state := by simp [Sched.setActor]
    refine ⟨?_, hpoll reading hclock⟩
    have hsame : reschedule ((actorDelete w.sched a).setActor a
        { (actorDelete w.sched a).actor a with data := data }) (q.remove a) a newTimeoutSecs false
          reading = nextQueues w q (.timerMod a newTimeoutSecs data reading) := by
      cases reading with
      | none => rfl
      | some now => simp only [reschedule, nextQueues, hstate]
    rw [← hsame]
    exact hs
  | pollBegin reading => exact h.pollBegin reading hclock
  | pollExec => exact h.pollExec
  | pollEnd =>
    refine ⟨?_, h.polled⟩
    simp only [step, nextQueues, actorPollEnd]
    split
    · exact ⟨⟨h.sound.rep.rings, h.sound.rep.waiting, h.sound.rep.scheduled, h.sound.rep.due,
        h.sound.rep.sorted⟩, h.sound.near, h.sound.watched⟩
    · exact h.sound
  | fire =>
    simp only [step, nextQueues]
    split
    · exact ⟨⟨⟨h.sound.rep.rings, h.sound.rep.waiting, h.sound.rep.scheduled, h.sound.rep.due,
        h.sound.rep.sorted⟩, h.sound.near, fun _ => .inl rfl⟩, h.polled⟩
    · exact h

/-! ## Runs -/

/-- Queues stay behind the links. -/
theorem Good.run (h : Good w q) {ops : List (Op A C P)} (hops : Runs.Guarded step Allowed w ops) :
    ∃ q', Good (run w ops) q' :=
  Runs.Guarded.run_invariant (I := fun w => ∃ q, Good w q)
    (fun _ op ⟨_, hg⟩ hop => ⟨_, step_good hg op hop⟩) ⟨q, h⟩ hops

end Steps

end ActorInvariant
