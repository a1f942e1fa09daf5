import Mathlib

/-!
# The mutexes of the NIC threads

Where `nic_loop` of `nic.c` holds `nic_mutex`, and how `prepare_nic_thread` of `nic_utils.c`,
`cnic_arp_send` and `cnic_neigh_soliciation_send` of `cnic.c` leave the mutexes they take. The
results of the device, of allocations and of requests of other threads are given.
-/

namespace NicLocks

/-- How often the thread holds a mutex, behind `pthread_mutex_lock`: two would be a
deadlock. -/
def lock (held : Int) : Int := held + 1

/-- The same behind `pthread_mutex_unlock`: negative if the thread did not hold it. -/
def unlock (held : Int) : Int := held - 1

@[simp] theorem lock_unlock (held : Int) : lock (unlock held) = held := by
  unfold lock unlock
  omega

/-! ## `nic_loop` -/

structure Turn where
  /-- `NIC_DISABLED` is set at the top. -/
  disabled : Bool
  /-- The state is `NIC_EXIT` behind the wait. -/
  exit : Bool
  /-- The result of `ops->open`. -/
  openRc : Int
  /-- The result of `alloc_free_queue`. -/
  packets : Nat
  /-- The calls of `do_acquisition`, with whether they get to `process_dhcp_loop`. -/
  acquisitions : List Bool
  /-- `NIC_DISABLED` is set behind the acquisitions. -/
  disabledMeanwhile : Bool
  /-- The turns of the main processing loop. -/
  rounds : Nat
  /-- `NIC_GOING_DOWN` is set at the end. -/
  goingDown : Bool

/-- The places where the state of `nic_mutex` matters, with how often the thread holds it. -/
inductive Place
  | condition (held : Int)
  | wait (held : Int)
  | nicClose (held : Int)
  | ended (held : Int)
  deriving DecidableEq

def Place.Fine : Place → Prop
  | .condition held => held = 1
  | .wait held => held = 1
  | .nicClose held => held = 1
  | .ended held => held = 0

/-- `do_acquisition` gives the mutex up while it waits for an address. -/
def doAcquisition (held : Int) (dhcp : Bool) : Int := if dhcp then lock (unlock held) else held

/-- The main processing loop, which gives the mutex up in each turn. -/
def mainLoop (held : Int) : Nat → Int
  | 0 => held
  | rounds + 1 => mainLoop (lock (unlock held)) rounds

def devClose (t : Turn) (held : Int) : List Place := if t.goingDown then [.nicClose held] else []

def atDevClose (t : Turn) (held : Int) : Int :=
  let held := unlock held
  -- the device could not be opened: `goto dev_close` behind the unlock
  if t.openRc ≠ 0 then held
  -- no packets: `goto dev_close`
  else if t.packets = 0 then held
  else
    let held := lock held
    let held := t.acquisitions.foldl doAcquisition held
    -- disabled meanwhile: `goto dev_close_free` behind the unlock
    if t.disabledMeanwhile then unlock held else mainLoop held t.rounds

/-- `nic_loop` through these turns, from the state of the mutex at the condition. The
wait gives the mutex up and takes it again. -/
def nicLoop : Int → List Turn → List Place
  | held, [] => [.condition held, .ended (unlock held)]
  | held, t :: ts =>
    if t.disabled && t.exit then
      [.condition held, .wait held, .ended (unlock (lock (unlock held)))]
    else
      let awake := if t.disabled then lock (unlock held) else held
      .condition held :: (if t.disabled then [.wait held] else []) ++
        devClose t (atDevClose t awake) ++ nicLoop (atDevClose t awake) ts

/-- No turn is left by one of the jumps behind an unlock, up to the end of the thread. -/
def Smooth : List Turn → Prop
  | [] => True
  | t :: ts =>
    (t.disabled && t.exit) = true ∨
      (t.openRc = 0 ∧ t.packets ≠ 0 ∧ t.disabledMeanwhile = false) ∧ Smooth ts

theorem doAcquisition_eq (held : Int) (dhcp : Bool) : doAcquisition held dhcp = held := by
  cases dhcp
  · rfl
  · exact lock_unlock held

theorem foldl_doAcquisition (held : Int) (acquisitions : List Bool) :
    acquisitions.foldl doAcquisition held = held := by
  induction acquisitions with
  | nil => rfl
  | cons dhcp acquisitions ih => rw [List.foldl_cons, doAcquisition_eq, ih]

theorem mainLoop_eq (held : Int) (rounds : Nat) : mainLoop held rounds = held := by
  induction rounds with
  | zero => rfl
  | succ rounds ih => rw [mainLoop, lock_unlock, ih]

/-- The jumps lose one lock. -/
theorem atDevClose_eq (t : Turn) (held : Int) :
    atDevClose t held =
      if t.openRc = 0 ∧ t.packets ≠ 0 ∧ t.disabledMeanwhile = false then held
      else unlock held := by
  unfold atDevClose
  dsimp only
  rw [lock_unlock, foldl_doAcquisition, mainLoop_eq]
  by_cases hopen : t.openRc = 0
  · by_cases hpackets : t.packets = 0
    · simp [hopen, hpackets]
    · cases hmeanwhile : t.disabledMeanwhile <;> simp [hopen, hpackets]
  · simp [hopen]

theorem atDevClose_iff (t : Turn) :
    atDevClose t 1 = 1 ↔ t.openRc = 0 ∧ t.packets ≠ 0 ∧ t.disabledMeanwhile = false := by
  rw [atDevClose_eq]
  split
  · next hsmooth => exact iff_of_true rfl hsmooth
  · next hjump => exact iff_of_false (by decide) hjump

/-- Wherever the loop goes on, it looks at its condition first. -/
theorem condition_mem (held : Int) (turns : List Turn) :
    .condition held ∈ nicLoop held turns := by
  cases turns with
  | nil => exact List.mem_cons_self
  | cons t ts =>
    unfold nicLoop
    split
    · exact List.mem_cons_self
    · simp

theorem devClose_fine_iff (t : Turn) (held : Int) :
    (∀ o ∈ devClose t held, o.Fine) ↔ (t.goingDown = true → held = 1) := by
  unfold devClose
  cases t.goingDown <;> simp [Place.Fine]

/-- One turn with the mutex held once. -/
theorem turn_fine_iff (t : Turn) (ts : List Turn) (hstay : (t.disabled && t.exit) = false) :
    (∀ o ∈ nicLoop 1 (t :: ts), o.Fine) ↔
      (t.goingDown = true → atDevClose t 1 = 1) ∧
        ∀ o ∈ nicLoop (atDevClose t 1) ts, o.Fine := by
  have hnot : ¬ (t.disabled && t.exit) = true := by
    rw [hstay]
    exact Bool.false_ne_true
  have hawake : (if t.disabled then lock (unlock 1) else 1) = 1 := by
    split <;> rfl
  have hwait : ∀ o ∈ (if t.disabled then [Place.wait 1] else []), o.Fine := by
    intro o ho
    split at ho
    · rw [List.mem_singleton.mp ho]
      rfl
    · exact absurd ho List.not_mem_nil
  rw [nicLoop, if_neg hnot]
  dsimp only
  rw [hawake, List.cons_append, List.cons_append, List.forall_mem_cons, List.forall_mem_append,
    List.forall_mem_append, devClose_fine_iff]
  constructor
  · rintro ⟨-, ⟨-, hclose⟩, hrest⟩
    exact ⟨hclose, hrest⟩
  · rintro ⟨hclose, hrest⟩
    exact ⟨rfl, ⟨hwait, hclose⟩, hrest⟩

theorem nicLoop_fine_iff (turns : List Turn) :
    (∀ o ∈ nicLoop 1 turns, o.Fine) ↔ Smooth turns := by
  induction turns with
  | nil => simp [nicLoop, Smooth, Place.Fine, unlock]
  | cons t ts ih =>
    cases hexit : t.disabled && t.exit with
    | true => simp [nicLoop, Smooth, Place.Fine, unlock, lock, hexit]
    | false =>
      rw [turn_fine_iff t ts hexit, Smooth, hexit, ← atDevClose_iff t]
      by_cases hclose : atDevClose t 1 = 1
      · simp [hclose, ih]
      · -- the next condition is evaluated without the mutex
        refine iff_of_false ?_ (by simp [hclose])
        rintro ⟨-, hall⟩
        exact hclose (hall _ (condition_mem _ ts))

/-! ## The other functions -/

/-- `prepare_nic_thread`: how often `nic_mutex` is held at the end. `thread` says that the thread
is already there, `create` that `pthread_create` succeeds. -/
def prepareNicThread (thread create : Bool) (held : Int) : Int :=
  let held := lock held
  if thread = false then
    -- `goto error` passes the unlock
    if create = false then held
    -- the timed wait
    else unlock (lock (unlock held))
  else unlock held

/-- The end of a function that tries to take `xmit_mutex`: whether it took it, and how often
it holds it. -/
structure Xmit where
  took : Bool
  held : Int

def cnicArpSend (trylock txPkt : Bool) (held : Int) : Xmit :=
  if trylock = false then ⟨false, held⟩
  else
    let held := lock held
    if txPkt = false then ⟨true, unlock held⟩ else ⟨true, unlock held⟩

/-- `cnic_neigh_soliciation_send`, with the answer of `ndpc_request` too: the returns between
the lock and the end do not unlock. -/
def cnicNeighSoliciationSend (trylock txPkt ndpc : Bool) (held : Int) : Xmit :=
  if trylock = false then ⟨false, held⟩
  else
    let held := lock held
    if txPkt = false then ⟨true, held⟩
    else if ndpc = false then ⟨true, held⟩
    else ⟨true, unlock held⟩

/-- The mutex is released on a path on which it was taken. -/
def Xmit.Released (x : Xmit) : Prop := x.took = true → x.held = 0

/-- The mutexes are held where they have to be exactly if no turn of `nic_loop` fails to open
the device, gets no packet or is disabled during the acquisition, the thread can be
created, and a solicitation that takes the mutex gets a packet and can be built. -/
theorem mutex_discipline_iff (turns : List Turn) (thread create trylock txPkt ndpc : Bool) :
    ((∀ o ∈ nicLoop (lock 0) turns, o.Fine) ∧ prepareNicThread thread create 0 = 0 ∧
        (cnicArpSend trylock txPkt 0).Released ∧
        (cnicNeighSoliciationSend trylock txPkt ndpc 0).Released) ↔
      Smooth turns ∧ (thread = true ∨ create = true) ∧
        (trylock = true → txPkt = true ∧ ndpc = true) := by
  have hloop : (∀ o ∈ nicLoop (lock 0) turns, o.Fine) ↔ Smooth turns := nicLoop_fine_iff turns
  refine and_congr hloop ?_
  cases thread <;> cases create <;> cases trylock <;> cases txPkt <;> cases ndpc <;>
    simp [prepareNicThread, cnicArpSend, cnicNeighSoliciationSend, Xmit.Released, lock, unlock]

/-- A device that cannot be opened: the condition is evaluated next without the mutex, and
`nic_close` called without it. A thread that cannot be created, and a solicitation without
a packet, leave a mutex locked. -/
theorem mutex_lost :
    nicLoop (lock 0) [⟨false, false, -5, 0, [], false, 0, true⟩] =
        [.condition 1, .nicClose 0, .condition 0, .ended (-1)] ∧
      prepareNicThread false false 0 = 1 ∧
      ¬ (cnicNeighSoliciationSend true false true 0).Released := by
  refine ⟨by decide, by decide, ?_⟩
  intro hreleased
  exact absurd (hreleased rfl) (by decide)

end NicLocks
