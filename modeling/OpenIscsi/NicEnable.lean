import OpenIscsi.Lib.Runs

/-!
# Enabling a NIC

`nic_enable` and `nic_disable` of `nic_utils.c`, `nic_loop` of `nic.c` and the handling of
`if_down` in `nic_nl.c`. A step is what one thread does between two of its waits or calls, and
a run is any order; any number of threads may be in `nic_enable`. The stop of the daemon is
left out.
-/

namespace NicEnable

open Runs

inductive NicState
  | stopped | startedRunning | running | exit
  deriving DecidableEq

/-- Where `nic_loop` is. -/
inductive Loop
  | top | waiting | opening | allocating | acquiring | running | closing | ended
  deriving DecidableEq

/-- A caller that waits in `nic_enable`: whether `enable_done_cond` was broadcast since, and
whether the NIC reached `NIC_RUNNING`. -/
structure Waiter where
  done : Bool
  ran : Bool
  deriving DecidableEq

/-- The flags and the state of the NIC, and where the threads are: `woken` says that
`enable_wait_cond` was broadcast since the loop waits. Behind them what happened: the
requests that no open has served yet, an open at a wrong time, and a `nic_enable` that
returned 0 wrongly. -/
structure State where
  enabled : Bool
  disabled : Bool
  goingDown : Bool
  exitMainLoop : Bool
  state : NicState
  loop : Loop
  woken : Bool
  waiters : List Waiter
  due : Nat
  badOpen : Bool
  badReturn : Bool
  deriving DecidableEq

/-- Behind `nic_init`. -/
def initial : State :=
  ⟨false, true, false, false, .stopped, .ended, false, [], 0, false, false⟩

inductive Event
  /-- `prepare_nic_thread` starts the loop. -/
  | start
  /-- `nic_enable` up to its wait. -/
  | enable
  /-- The wait of this caller ends with this result. -/
  | enableWoken (i : Nat) (rc : Int)
  /-- `nic_disable`, up to its wait. -/
  | disable (goingDown : Bool)
  | ifDown
  /-- `nic_remove` cancels the threads. -/
  | remove
  /-- The outer loop's condition and what follows, up to its wait. -/
  | top
  /-- The wait ends, with a broadcast or without one. -/
  | wake
  /-- `ops->open` returns. -/
  | opened (rc : Int)
  /-- `alloc_free_queue` returns. -/
  | allocated (packets : Nat)
  | acquired
  /-- The main processing loop ends. -/
  | leave
  /-- `dev_close`, with the result of `ops->close`. -/
  | close (rc : Int)
  deriving DecidableEq

def enotsup : Int := 95

/-- `pthread_cond_broadcast(&nic->enable_done_cond)` -/
def broadcastDone (s : State) : State :=
  { s with waiters := s.waiters.map fun w => { w with done := true } }

def nicEnable (s : State) : State :=
  if s.goingDown = true ∨ s.state ≠ .stopped then s
  else
    { s with
      woken := s.woken || s.loop = .waiting, disabled := false, enabled := true
      waiters := s.waiters ++ [⟨false, false⟩], due := s.due + 1 }

/-- The part of `nic_enable` behind its wait. It returns `rc`, also where it takes the branch
for a failure. -/
def nicEnableWoken (s : State) (i : Nat) (rc : Int) : State :=
  match s.waiters[i]? with
  | none => s
  | some w =>
    let s :=
      { s with
        waiters := s.waiters.eraseIdx i
        badReturn := s.badReturn || (rc = 0 && !w.ran) }
    if rc = 0 ∧ s.enabled = true then s else { s with enabled := false, disabled := true }

def nicDisable (s : State) (goingDown : Bool) : State :=
  if s.state = .startedRunning ∨ s.state = .running then
    { s with
      enabled := false, disabled := true, state := .stopped
      goingDown := s.goingDown || goingDown }
  else s

/-- `nic_loop` behind `ops->open`. -/
def opened (s : State) (rc : Int) : State :=
  let s :=
    { s with
      badOpen := s.badOpen || !(s.enabled && !s.disabled && s.due ≠ 0)
      due := s.due - 1 }
  if rc = 0 then { s with loop := .allocating }
  else if rc = -enotsup then
    { broadcastDone { s with exitMainLoop := true } with loop := .closing }
  else { broadcastDone { s with enabled := false } with loop := .closing }

def top (s : State) : State :=
  if s.exitMainLoop = true ∨ s.goingDown = true then { s with loop := .ended }
  else if s.disabled = true then { s with loop := .waiting, woken := false }
  else { s with loop := .opening }

/-- `dev_close`; `nic_close` leaves the flags alone if the device cannot be closed. -/
def close (s : State) (rc : Int) : State :=
  let s :=
    if s.goingDown = true then
      let s :=
        if rc = 0 then { s with state := .stopped, enabled := false, disabled := true } else s
      { s with goingDown := false }
    else s
  { s with loop := .top }

def inPlace (place : Loop) (s t : State) : State := if s.loop = place then t else s

def step (s : State) : Event → State
  | .start => inPlace .ended s (if s.state = .exit then s else { s with loop := .top })
  | .enable => nicEnable s
  | .enableWoken i rc => nicEnableWoken s i rc
  | .disable goingDown => nicDisable s goingDown
  | .ifDown => nicDisable (broadcastDone { s with exitMainLoop := true }) true
  | .remove => { s with state := .exit, loop := .ended, waiters := [] }
  | .top => inPlace .top s (top s)
  | .wake =>
    inPlace .waiting s { s with loop := if s.state = .exit then .ended else .opening, woken := false }
  | .opened rc => inPlace .opening s (opened s rc)
  | .allocated packets =>
    inPlace .allocating s
      (if packets = 0 then { broadcastDone s with loop := .closing }
        else { s with state := .startedRunning, loop := .acquiring })
  | .acquired =>
    inPlace .acquiring s
      (if s.disabled = true then { broadcastDone s with loop := .closing }
        else
          { s with state := .running, loop := .running, waiters := s.waiters.map fun _ => ⟨true, true⟩ })
  | .leave =>
    inPlace .running s
      (if s.state ≠ .running ∨ s.goingDown = true then { s with loop := .closing } else s)
  | .close rc => inPlace .closing s (close s rc)

/-- No open came at a wrong time and no wrong success was reported. -/
def Truthful (s : State) : Prop := s.badOpen = false ∧ s.badReturn = false

/-- The loop is woken only by a broadcast, the device opens and packets are there, a wait in
`nic_enable` ends with the broadcast, and nobody disables the NIC before. -/
def Smooth (s : State) : Event → Prop
  | .wake => s.woken = true
  | .opened rc => rc = 0
  | .allocated packets => packets ≠ 0
  | .enableWoken i rc => rc = 0 ∧ ∀ w ∈ s.waiters[i]?, w.done = true
  | .disable _ | .ifDown | .remove => s.waiters = []
  | _ => True
/-- The loop is between the open and the main processing loop. -/
def Starting (s : State) : Prop :=
  s.loop = .opening ∨ s.loop = .allocating ∨ s.loop = .acquiring

/-- The loop is about to evaluate its condition. -/
def Between (s : State) : Prop :=
  s.loop = .top ∨ s.loop = .closing ∨ (s.loop = .running ∧ s.state ≠ .running) ∨
    (s.loop = .ended ∧ s.state ≠ .exit)

/-- It goes on to its wait then, or a request came while it was busy. -/
def Idle (s : State) : Prop := s.disabled = true ∨ s.waiters ≠ [] ∧ s.due ≠ 0

/-- How the flags and the places of the threads go together. -/
structure Inv (s : State) : Prop where
  truthful : Truthful s
  asked : s.waiters ≠ [] → s.enabled = true ∧ s.disabled = false ∧ s.goingDown = false
  served : ∀ w ∈ s.waiters, w.done = true →
    w.ran = true ∧ s.loop = .running ∧ s.state = .running
  starting : Starting s → s.waiters ≠ []
  opening : s.loop = .opening → s.due ≠ 0
  woken : s.loop = .waiting → s.woken = true → s.waiters ≠ [] ∧ s.due ≠ 0
  between : Between s → Idle s
  down : s.goingDown = true → s.disabled = true

theorem inv_initial : Inv initial := by
  constructor <;> simp [initial, Truthful, Starting, Idle]

variable {s : State}

/-- Away from the main processing loop nobody was told yet. -/
theorem Inv.not_done (hs : Inv s) (h : s.loop ≠ .running) {P : Waiter → Prop} :
    ∀ w ∈ s.waiters, w.done = true → P w :=
  fun w hw hdone => absurd (hs.served w hw hdone).2.1 h

theorem inv_start (hs : Inv s) (hloop : s.loop = .ended) :
    Inv (if s.state = .exit then s else { s with loop := .top }) := by
  split
  · exact hs
  · next hexit =>
    have hidle := hs.between (Or.inr (Or.inr (Or.inr ⟨hloop, hexit⟩)))
    exact ⟨hs.truthful, hs.asked, hs.not_done (by simp [hloop]), by simp [Starting], by simp,
      by simp, fun _ => hidle, hs.down⟩

theorem inv_enable (hs : Inv s) : Inv (nicEnable s) := by
  unfold nicEnable
  split
  · exact hs
  · next hfree =>
    have hdown : s.goingDown = false := by
      by_contra hgoing
      exact hfree (Or.inl (by simpa using hgoing))
    refine ⟨hs.truthful, by simp [hdown], ?_, by simp, by simp, by simp, by simp [Idle],
      by simp [hdown]⟩
    intro w hw hdone
    rcases List.mem_append.mp hw with hold | hnew
    · exact hs.served w hold hdone
    · rw [List.mem_singleton.mp hnew] at hdone
      cases hdone

theorem inv_enableWoken (hs : Inv s) (i : Nat) (hdone : ∀ w ∈ s.waiters[i]?, w.done = true) :
    Inv (nicEnableWoken s i 0) := by
  unfold nicEnableWoken
  split
  · exact hs
  · next w hw =>
    have hmem : w ∈ s.waiters := List.mem_of_getElem? hw
    obtain ⟨hran, hloop, hstate⟩ := hs.served w hmem (hdone w hw)
    obtain ⟨henabled, hdisabled, hdown⟩ := hs.asked (List.ne_nil_of_mem hmem)
    dsimp only
    rw [if_pos ⟨rfl, henabled⟩]
    refine ⟨⟨hs.truthful.1, by simp [hran, hs.truthful.2]⟩, fun _ => ⟨henabled, hdisabled, hdown⟩,
      fun v hv => hs.served v (List.mem_of_mem_eraseIdx hv), ?_, ?_, ?_, ?_, hs.down⟩
    all_goals simp [Starting, Between, hloop, hstate]

theorem inv_disable (hs : Inv s) (hnone : s.waiters = []) (goingDown : Bool) :
    Inv (nicDisable s goingDown) := by
  unfold nicDisable
  split
  · exact ⟨hs.truthful, by simp [hnone], by simp [hnone], hs.starting, hs.opening, hs.woken,
      fun _ => Or.inl rfl, fun _ => rfl⟩
  · exact hs

theorem inv_top (hs : Inv s) (hloop : s.loop = .top) : Inv (top s) := by
  have hidle := hs.between (Or.inl hloop)
  have hserved : s.loop ≠ .running := by simp [hloop]
  unfold top
  split
  · exact ⟨hs.truthful, hs.asked, hs.not_done hserved, by simp [Starting], by simp, by simp,
      fun _ => hidle, hs.down⟩
  · split
    · exact ⟨hs.truthful, hs.asked, hs.not_done hserved, by simp [Starting], by simp, by simp,
        fun _ => hidle, hs.down⟩
    · next henabled =>
      obtain ⟨hasked, hdue⟩ := hidle.resolve_left henabled
      exact ⟨hs.truthful, hs.asked, hs.not_done hserved, fun _ => hasked, fun _ => hdue, by simp,
        by simp [Between], hs.down⟩

theorem inv_wake (hs : Inv s) (hloop : s.loop = .waiting) (hwoken : s.woken = true) :
    Inv { s with loop := if s.state = .exit then .ended else .opening, woken := false } := by
  obtain ⟨hasked, hdue⟩ := hs.woken hloop hwoken
  exact ⟨hs.truthful, hs.asked, hs.not_done (by simp [hloop]), fun _ => hasked, fun _ => hdue,
    by simp, fun _ => Or.inr ⟨hasked, hdue⟩, hs.down⟩

theorem inv_opened (hs : Inv s) (hloop : s.loop = .opening) : Inv (opened s 0) := by
  have hasked := hs.starting (Or.inl hloop)
  obtain ⟨henabled, hdisabled, -⟩ := hs.asked hasked
  refine ⟨⟨?_, hs.truthful.2⟩, hs.asked, hs.not_done (by simp [hloop]), fun _ => hasked,
    by simp [opened], by simp [opened], by simp [opened, Between], hs.down⟩
  simp [opened, henabled, hdisabled, hs.opening hloop, hs.truthful.1]

theorem inv_allocated (hs : Inv s) (hloop : s.loop = .allocating) :
    Inv { s with state := .startedRunning, loop := .acquiring } := by
  have hasked := hs.starting (Or.inr (Or.inl hloop))
  exact ⟨hs.truthful, hs.asked, hs.not_done (by simp [hloop]), fun _ => hasked, by simp, by simp,
    by simp [Between], hs.down⟩

theorem inv_acquired (hs : Inv s) (hloop : s.loop = .acquiring) :
    s.disabled = false ∧
      Inv { s with
        state := .running, loop := .running, waiters := s.waiters.map fun _ => ⟨true, true⟩ } := by
  obtain ⟨henabled, hdisabled, hdown⟩ := hs.asked (hs.starting (Or.inr (Or.inr hloop)))
  exact ⟨hdisabled, hs.truthful, fun _ => ⟨henabled, hdisabled, hdown⟩, by simp, by simp [Starting],
    by simp, by simp, by simp [Between], hs.down⟩

theorem inv_leave (hs : Inv s) (hloop : s.loop = .running)
    (h : s.state ≠ .running ∨ s.goingDown = true) : Inv { s with loop := .closing } := by
  refine ⟨hs.truthful, hs.asked, fun w hw hdone => ?_, by simp [Starting], by simp, by simp,
    fun _ => ?_, hs.down⟩
  · rcases h with hstate | hdown
    · exact absurd (hs.served w hw hdone).2.2 hstate
    · rw [(hs.asked (List.ne_nil_of_mem hw)).2.2] at hdown
      cases hdown
  · rcases h with hstate | hdown
    · exact hs.between (Or.inr (Or.inr (Or.inl ⟨hloop, hstate⟩)))
    · exact Or.inl (hs.down hdown)

theorem inv_close (hs : Inv s) (hloop : s.loop = .closing) (rc : Int) : Inv (close s rc) := by
  have hidle := hs.between (Or.inr (Or.inl hloop))
  have hserved : s.loop ≠ .running := by simp [hloop]
  unfold close
  by_cases hdown : s.goingDown = true
  · have hnone : s.waiters = [] := by
      by_contra hasked
      have hno := (hs.asked hasked).2.2
      rw [hdown] at hno
      cases hno
    have hdisabled := hs.down hdown
    rw [if_pos hdown]
    dsimp only
    split
    · exact ⟨hs.truthful, by simp [hnone], by simp [hnone], by simp [Starting], by simp, by simp,
        fun _ => Or.inl rfl, by simp⟩
    · exact ⟨hs.truthful, by simp [hnone], by simp [hnone], by simp [Starting], by simp, by simp,
        fun _ => Or.inl hdisabled, by simp⟩
  · rw [if_neg hdown]
    exact ⟨hs.truthful, hs.asked, hs.not_done hserved, by simp [Starting], by simp, by simp,
      fun _ => hidle, hs.down⟩

theorem inv_inPlace {t : State} {place : Loop} (hs : Inv s) (ht : s.loop = place → Inv t) :
    Inv (inPlace place s t) := by
  unfold inPlace
  split
  · next h => exact ht h
  · exact hs

theorem inv_step (s : State) (e : Event) (hs : Inv s) (h : Smooth s e) : Inv (step s e) := by
  cases e with
  | start => exact inv_inPlace hs (inv_start hs)
  | enable => exact inv_enable hs
  | enableWoken i rc =>
    obtain ⟨rfl, hdone⟩ := h
    exact inv_enableWoken hs i hdone
  | disable goingDown => exact inv_disable hs h goingDown
  | ifDown =>
    have hnone : s.waiters = [] := h
    have hsame : broadcastDone { s with exitMainLoop := true } = { s with exitMainLoop := true } := by
      simp [broadcastDone, hnone]
    have hexit : Inv { s with exitMainLoop := true } :=
      ⟨hs.truthful, hs.asked, hs.served, hs.starting, hs.opening, hs.woken, hs.between, hs.down⟩
    simp only [step, hsame]
    exact inv_disable hexit hnone true
  | remove =>
    exact ⟨hs.truthful, by simp [step], by simp [step], by simp [step, Starting], by simp [step],
      by simp [step], by simp [step, Between], hs.down⟩
  | top => exact inv_inPlace hs (inv_top hs)
  | wake => exact inv_inPlace hs fun hloop => inv_wake hs hloop h
  | opened rc =>
    obtain rfl : rc = 0 := h
    exact inv_inPlace hs (inv_opened hs)
  | allocated packets =>
    have hsome : ¬ packets = 0 := h
    simp only [step, if_neg hsome]
    exact inv_inPlace hs (inv_allocated hs)
  | acquired =>
    refine inv_inPlace hs fun hloop => ?_
    obtain ⟨hdisabled, hrun⟩ := inv_acquired hs hloop
    rw [if_neg (by simp [hdisabled])]
    exact hrun
  | leave =>
    refine inv_inPlace hs fun hloop => ?_
    split
    · next hleave => exact inv_leave hs hloop hleave
    · exact hs
  | close rc => exact inv_inPlace hs fun hloop => inv_close hs hloop rc

/-- In every run whose steps meet the condition, the device is opened only for a request, once
and while the NIC is enabled, and `nic_enable` returns 0 only if the NIC ran for it. -/
theorem enable_truthful (es : List Event) (h : Guarded step Smooth initial es) :
    Truthful (run step initial es) :=
  (h.run_invariant inv_step inv_initial).truthful

/-- A NIC is enabled, runs, and goes down. -/
def smoothRun : List Event :=
  [.start, .top, .enable, .wake, .opened 0, .allocated 5, .acquired, .enableWoken 0 0, .ifDown,
    .leave, .close 0, .remove]

theorem enable_truthful_smooth : Truthful (run step initial smoothRun) :=
  enable_truthful smoothRun ⟨trivial, trivial, trivial, rfl, rfl, Nat.succ_ne_zero 4, trivial,
    ⟨rfl, by decide⟩, rfl, trivial, trivial, rfl, trivial⟩

/-- The device cannot be opened and `nic_enable` returns 0; a spurious wake-up opens a NIC that
is disabled. -/
theorem enable_untruthful :
    (run step initial [.start, .top, .enable, .wake, .opened (-5), .enableWoken 0 0]).badReturn = true ∧
      (run step initial [.start, .top, .wake, .opened 0]).badOpen = true := by
  decide

end NicEnable
