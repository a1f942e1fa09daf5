import OpenIscsi.Lib.Ring
import OpenIscsi.Lib.Runs

/-!
# The scheduler of `actor.c`

Actors are linked into `pend_list` or `ready_list` through the links inside
them. The clock is read in whole seconds, and a reading of `none` is a failing
`clock_gettime`. `alarm` arms the one SIGALRM of the process relative to the
reading of the call it is made in. A callback runs inside `actor_poll` and may
call everything but `actor_poll`, so a poll is a sequence of steps: its
beginning, the invocations with whatever their callbacks call, and its end. The
name of an actor is only logged and left out.
-/

namespace Actor

open Ring

/-- The nodes of the two lists; `null` is the pointer `list_del` leaves. -/
inductive Node (A : Type) where
  | null | pendList | readyList | actor (a : A)
  deriving DecidableEq, Repr

inductive ActorState where
  | invalid | waiting | scheduled | notScheduled
  deriving DecidableEq, Repr

structure ActorT (C P : Type) where
  state : ActorState := .invalid
  data : P
  callback : C
  ttschedule : Nat := 0

structure Sched (A C P : Type) where
  links : Links (Node A)
  actor : A → ActorT C P
  pollInProgress : Bool := false
  /-- The time at which the alarm is due, if it is armed. -/
  alarm : Option Nat := none

section Functions

variable {A C P : Type} [DecidableEq A] [Fintype A]

def Sched.setActor (s : Sched A C P) (a : A) (t : ActorT C P) : Sched A C P :=
  { s with actor := Function.update s.actor a t }

def Sched.setAlarm (s : Sched A C P) (now seconds : Nat) : Sched A C P :=
  { s with alarm := if seconds % 2 ^ 32 = 0 then none else some (now + seconds % 2 ^ 32) }

/-- More rounds than a list of actors can take. -/
def rounds (A : Type) [Fintype A] : Nat := Fintype.card A + 1

def actorTimeLeft (t : ActorT C P) (currentTime : Nat) : Nat :=
  if t.ttschedule < currentTime then 0 else t.ttschedule - currentTime

def actorInit (s : Sched A C P) (a : A) (callback : C) (data : P) : Sched A C P :=
  { s with links := initListHead s.links (.actor a) }.setActor a
    { s.actor a with state := .notScheduled, callback := callback, data := data }

def unlink (s : Sched A C P) (a : A) : Sched A C P :=
  let s := { s with links := listDelInit s.links (.actor a) }
  if listEmpty s.links .pendList then { s with alarm := none } else s

def actorDelete (s : Sched A C P) (a : A) : Sched A C P :=
  let s := match (s.actor a).state with
    | .waiting => unlink s a
    | .scheduled => unlink s a
    | _ => s
  s.setActor a { s.actor a with state := .notScheduled }

/-- `time_after(next_thread->ttschedule, thread->ttschedule)` for an entry of the list. -/
def dueLater (s : Sched A C P) (a : A) : Node A → Bool
  | .actor b => (s.actor a).ttschedule < (s.actor b).ttschedule
  | _ => false

def pendHead (s : Sched A C P) : Option (Node A) :=
  if listEmpty s.links .pendList then none else some (s.links.next .pendList)

def linkOnPendList (s : Sched A C P) (a : A) : Links (Node A) :=
  match findFrom s.links .pendList (dueLater s a) (rounds A) (s.links.next .pendList) with
  | some next => rawAdd s.links (.actor a) (s.links.prev next) next
  | none => listAddTail s.links (.actor a) .pendList

def actorInsertOnPendList (s : Sched A C P) (a : A) (delaySecs now : Nat) : Sched A C P :=
  let origHead := pendHead s
  let s := { s with links := linkOnPendList s a }
  if origHead ≠ some (s.links.next .pendList) then s.setAlarm now delaySecs else s

def scheduleFresh (s : Sched A C P) (a : A) (delaySecs : UInt32) (head : Bool) (now : Nat) :
    Sched A C P :=
  let s := { s with links := initListHead s.links (.actor a) }
  if delaySecs = 0 then
    let s := s.setActor a { s.actor a with state := .scheduled }
    { s with links :=
        if head then listAdd s.links (.actor a) .readyList
        else listAddTail s.links (.actor a) .readyList }
  else
    let s := s.setActor a
      { s.actor a with state := .waiting, ttschedule := now + delaySecs.toNat }
    actorInsertOnPendList s a delaySecs.toNat now

def actorSchedulePrivate (s : Sched A C P) (a : A) (delaySecs : UInt32) (head : Bool)
    (reading : Option Nat) : Sched A C P :=
  match reading with
  | none => s
  | some now =>
    match (s.actor a).state with
    | .waiting =>
      scheduleFresh { s with links := listDel .null s.links (.actor a) } a delaySecs head now
    | .notScheduled => scheduleFresh s a delaySecs head now
    | .scheduled => s
    | .invalid => s

def actorScheduleHead (s : Sched A C P) (a : A) (reading : Option Nat) : Sched A C P :=
  actorSchedulePrivate s a 0 true reading

def actorSchedule (s : Sched A C P) (a : A) (reading : Option Nat) : Sched A C P :=
  actorSchedulePrivate s a 0 false reading

def actorTimer (s : Sched A C P) (a : A) (timeoutSecs : UInt32) (callback : C) (data : P)
    (reading : Option Nat) : Sched A C P :=
  actorSchedulePrivate (actorInit s a callback data) a timeoutSecs false reading

def actorTimerMod (s : Sched A C P) (a : A) (newTimeoutSecs : UInt32) (data : P)
    (reading : Option Nat) : Sched A C P :=
  let s := actorDelete s a
  let s := s.setActor a { s.actor a with data := data }
  actorSchedulePrivate s a newTimeoutSecs false reading

/-- A ripe entry of `pend_list` is moved behind the ready ones. -/
def moveRipe (s : Sched A C P) (a : A) : Sched A C P :=
  let s := { s with links := listDelInit s.links (.actor a) }
  let s := { s with links := listAddTail s.links (.actor a) .readyList }
  s.setActor a { s.actor a with state := .scheduled }

/-- The loop of `actor_poll` over `pend_list`; `tmp` is the entry after `pos`. -/
def pollScan (now : Nat) : Nat → Sched A C P → Node A → Node A → Sched A C P
  | 0, s, _, _ => s
  | fuel + 1, s, pos, tmp =>
    match pos with
    | .actor a =>
      let timeLeft := actorTimeLeft (s.actor a) now
      if timeLeft ≠ 0 then s.setAlarm now timeLeft
      else
        let s := moveRipe s a
        pollScan now fuel s tmp (s.links.next tmp)
    | _ => s

def actorPollBegin (s : Sched A C P) (reading : Option Nat) : Sched A C P :=
  if s.pollInProgress then s
  else
    match reading with
    | none => s
    | some now =>
      let first := s.links.next .pendList
      let s := pollScan now (rounds A) s first (s.links.next first)
      let s := if listEmpty s.links .pendList then { s with alarm := none } else s
      { s with pollInProgress := true }

/-- One round of the second loop: the actor whose callback is invoked. -/
def actorPollExec (s : Sched A C P) : Option (A × Sched A C P) :=
  if s.pollInProgress && !listEmpty s.links .readyList then
    match s.links.next .readyList with
    | .actor a =>
      let s := { s with links := listDelInit s.links (.actor a) }
      some (a, s.setActor a { s.actor a with state := .notScheduled })
    | _ => none
  else none

def actorPollEnd (s : Sched A C P) : Sched A C P :=
  if listEmpty s.links .readyList then { s with pollInProgress := false } else s

end Functions

/-! ## Runs -/

structure Invocation (A C P : Type) where
  actor : A
  callback : C
  data : P
  pollTime : Nat

/-- The scheduler and what can be said about the run so far. -/
structure World (A C P : Type) where
  sched : Sched A C P
  /-- The last clock reading. -/
  clock : Nat := 0
  /-- SIGALRM was delivered since the last poll read the clock. -/
  fired : Bool := false
  /-- What the last poll read. -/
  pollTime : Nat := 0
  invoked : List (Invocation A C P) := []

/-- The calls of `actor.h`, the steps of a poll, and the delivery of the alarm. -/
inductive Op (A C P : Type) where
  | init (a : A) (callback : C) (data : P)
  | delete (a : A)
  | scheduleHead (a : A) (reading : Option Nat)
  | schedule (a : A) (reading : Option Nat)
  | timer (a : A) (timeoutSecs : UInt32) (callback : C) (data : P) (reading : Option Nat)
  | timerMod (a : A) (newTimeoutSecs : UInt32) (data : P) (reading : Option Nat)
  | pollBegin (reading : Option Nat)
  | pollExec
  | pollEnd
  | fire

/-- The clock reading of a call. -/
def Op.reading {A C P : Type} : Op A C P → Option Nat
  | .scheduleHead _ reading => reading
  | .schedule _ reading => reading
  | .timer _ _ _ _ reading => reading
  | .timerMod _ _ _ reading => reading
  | .pollBegin reading => reading
  | _ => none

section Runs

variable {A C P : Type} [DecidableEq A] [Fintype A]

/-- A poll has read the clock: an alarm delivered before no longer counts. -/
def World.polled (w : World A C P) (reading : Option Nat) : World A C P :=
  if w.sched.pollInProgress then w
  else
    match reading with
    | none => w
    | some now => { w with fired := false, pollTime := now }

def step (w : World A C P) (op : Op A C P) : World A C P :=
  let w := { w with clock := op.reading.getD w.clock }
  match op with
  | .init a callback data => { w with sched := actorInit w.sched a callback data }
  | .delete a => { w with sched := actorDelete w.sched a }
  | .scheduleHead a reading => { w with sched := actorScheduleHead w.sched a reading }
  | .schedule a reading => { w with sched := actorSchedule w.sched a reading }
  | .timer a timeoutSecs callback data reading =>
    { w with sched := actorTimer w.sched a timeoutSecs callback data reading }
  | .timerMod a newTimeoutSecs data reading =>
    { w with sched := actorTimerMod w.sched a newTimeoutSecs data reading }
  | .pollBegin reading => { w.polled reading with sched := actorPollBegin w.sched reading }
  | .pollExec =>
    match actorPollExec w.sched with
    | some (a, s) =>
      { w with
        sched := s
        invoked := w.invoked ++ [⟨a, (s.actor a).callback, (s.actor a).data, w.pollTime⟩] }
    | none => w
  | .pollEnd => { w with sched := actorPollEnd w.sched }
  | .fire =>
    if w.sched.alarm.isSome then { w with sched := { w.sched with alarm := none }, fired := true }
    else w

def OnList (s : Sched A C P) (head : Node A) (a : A) : Prop :=
  ∃ xs, IsRing s.links head xs ∧ .actor a ∈ xs

def OnNoList (s : Sched A C P) (a : A) : Prop :=
  ¬ OnList s .pendList a ∧ ¬ OnList s .readyList a

/-- What callers keep to: the clock does not go back, and only an actor on no
list is initialised. -/
def Allowed (w : World A C P) (op : Op A C P) : Prop :=
  (∀ now, op.reading = some now → w.clock ≤ now) ∧
    match op with
    | .init a _ _ => OnNoList w.sched a
    | .timer a _ _ _ _ => OnNoList w.sched a
    | _ => True

def run (w : World A C P) (ops : List (Op A C P)) : World A C P := Runs.run step w ops

def start (actor : A → ActorT C P) : World A C P where
  sched := {
    links := initListHead (initListHead ⟨fun _ => .null, fun _ => .null⟩ .pendList) .readyList
    actor := fun a => { actor a with state := .invalid } }

end Runs

end Actor
