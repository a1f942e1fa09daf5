import OpenIscsi.Lib.Runs

/-!
# The transmit buffer of bnx2

`bnx2_write`, `bnx2_clear_tx_intr` and `bnx2_start_xmit` of `libs/bnx2.c` on the NIC's thread,
`cnic_arp_send` and `cnic_neigh_soliciation_send` of `libs/cnic.c` on the thread for path
requests, and the hardware. A step is one action of one of them, and a run is any order.
-/

namespace TxBuffer

open Runs

inductive Thread
  | nic | path
  deriving DecidableEq

/-- The NIC's thread, before it copies a packet to the buffer or starts it. Neither
`bnx2_write` nor `bnx2_clear_tx_intr` unlocks behind the start. -/
inductive NicPc
  | idle | copy | start
  deriving DecidableEq

/-- The thread for path requests, in one of its two functions. -/
inductive PathPc
  | idle
  | fill (neigh : Bool)
  | start
  | unlock
  deriving DecidableEq

/-- Who holds `xmit_mutex`, the packets started and not completed, and the length of the
queue; and whether the buffer was written while a packet was under way, and the mutex
unlocked by a thread that did not hold it. -/
structure State where
  holder : Option Thread
  inFlight : Nat
  queue : Nat
  nicPc : NicPc
  pathPc : PathPc
  overwritten : Bool
  stolen : Bool
  deriving DecidableEq

def initial : State := ⟨none, 0, 0, .idle, .idle, false, false⟩

inductive Event
  /-- `bnx2_write` tries the mutex. -/
  | write
  /-- A packet is put on the queue. -/
  | queue
  /-- An interrupt: `bnx2_clear_tx_intr`, which takes a packet from the queue or unlocks. -/
  | intr
  | nicNext (closed : Bool)
  /-- One of the two functions for path requests tries the mutex. -/
  | send (neigh : Bool)
  /-- Its next action, with the results of `get_tx_pkt` and `ndpc_request`. -/
  | pathNext (txPkt ndpc closed : Bool)
  | complete
  deriving DecidableEq

def unlock (t : Thread) (s : State) : State :=
  { s with holder := none, stolen := s.stolen || s.holder != some t }

def writeBuffer (s : State) : State :=
  { s with overwritten := s.overwritten || s.inFlight != 0 }

def bnx2StartXmit (t : Thread) (closed : Bool) (s : State) : State :=
  if closed then unlock t s else { s with inFlight := s.inFlight + 1 }

def nicNext (closed : Bool) (s : State) : State :=
  match s.nicPc with
  | .idle => s
  | .copy => { writeBuffer s with nicPc := .start }
  | .start => { bnx2StartXmit .nic closed s with nicPc := .idle }

def pathNext (txPkt ndpc closed : Bool) (s : State) : State :=
  match s.pathPc with
  | .idle => s
  | .fill false =>
    if txPkt then { writeBuffer s with pathPc := .start }
    else { unlock .path s with pathPc := .idle }
  | .fill true =>
    -- both failures return with the mutex locked
    if txPkt then { writeBuffer s with pathPc := if ndpc then .start else .idle }
    else { s with pathPc := .idle }
  | .start => { bnx2StartXmit .path closed s with pathPc := .unlock }
  | .unlock => { unlock .path s with pathPc := .idle }

def step (s : State) : Event → State
  | .write =>
    if s.nicPc = .idle ∧ s.holder = none then { s with holder := some .nic, nicPc := .copy }
    else s
  | .queue => { s with queue := s.queue + 1 }
  | .intr =>
    if s.nicPc = .idle then
      if s.queue ≠ 0 then { s with queue := s.queue - 1, nicPc := .copy } else unlock .nic s
    else s
  | .nicNext closed => nicNext closed s
  | .send neigh =>
    if s.pathPc = .idle ∧ s.holder = none then
      { s with holder := some .path, pathPc := .fill neigh }
    else s
  | .pathNext txPkt ndpc closed => pathNext txPkt ndpc closed s
  | .complete => { s with inFlight := s.inFlight - 1 }

/-- The buffer is used by one packet at a time and the mutex unlocked by its holder. -/
def Exclusive (s : State) : Prop := s.overwritten = false ∧ s.stolen = false

/-- A free mutex is tried only when the hardware has completed every packet, an interrupt
comes only for a packet of the NIC's thread that is complete, and the device is open. -/
def InTurn (s : State) : Event → Prop
  | .write | .send _ => s.holder = none → s.inFlight = 0
  | .intr => s.holder = some .nic ∧ s.inFlight = 0
  | .nicNext closed | .pathNext _ _ closed => closed = false
  | .queue | .complete => True

/-- A thread that is about to use the buffer holds the mutex, and no packet is under way. -/
structure Inv (s : State) : Prop where
  exclusive : Exclusive s
  nic : s.nicPc ≠ .idle → s.holder = some .nic ∧ s.inFlight = 0
  path : s.pathPc ≠ .idle → s.holder = some .path
  fresh : s.pathPc ≠ .idle → s.pathPc ≠ .unlock → s.inFlight = 0

theorem inv_initial : Inv initial where
  exclusive := ⟨rfl, rfl⟩
  nic := fun h => absurd rfl h
  path := fun h => absurd rfl h
  fresh := fun h => absurd rfl h

variable {s : State}

theorem Inv.path_idle (hs : Inv s) (h : s.holder ≠ some .path) : s.pathPc = .idle := by
  by_contra hpc
  exact h (hs.path hpc)

theorem Inv.nic_idle (hs : Inv s) (h : s.holder ≠ some .nic) : s.nicPc = .idle := by
  by_contra hpc
  exact h (hs.nic hpc).1

theorem inv_write (hs : Inv s) (hturn : InTurn s .write) : Inv (step s .write) := by
  unfold step
  dsimp only
  split
  · next hfree =>
    have hpath : s.pathPc = .idle := hs.path_idle (by rw [hfree.2]; decide)
    exact ⟨hs.exclusive, fun _ => ⟨rfl, hturn hfree.2⟩, fun h => absurd hpath h,
      fun h => absurd hpath h⟩
  · exact hs

theorem inv_intr (hs : Inv s) (hturn : InTurn s .intr) : Inv (step s .intr) := by
  obtain ⟨hholder, hdone⟩ := hturn
  have hpath : s.pathPc = .idle := hs.path_idle (by rw [hholder]; decide)
  unfold step
  dsimp only
  split
  · next hidle =>
    split
    · exact ⟨hs.exclusive, fun _ => ⟨hholder, hdone⟩, hs.path, hs.fresh⟩
    · refine ⟨⟨hs.exclusive.1, ?_⟩, fun h => absurd hidle h, fun h => absurd hpath h,
        fun h => absurd hpath h⟩
      simp [unlock, hholder, hs.exclusive.2]
  · exact hs

theorem inv_nicNext (hs : Inv s) : Inv (step s (.nicNext false)) := by
  unfold step nicNext
  dsimp only
  split
  · exact hs
  · next hpc =>
    obtain ⟨hholder, hdone⟩ := hs.nic (by rw [hpc]; decide)
    refine ⟨⟨?_, hs.exclusive.2⟩, fun _ => ⟨hholder, hdone⟩, hs.path, hs.fresh⟩
    simp [writeBuffer, hdone, hs.exclusive.1]
  · next hpc =>
    obtain ⟨hholder, -⟩ := hs.nic (by rw [hpc]; decide)
    have hpath : s.pathPc = .idle := hs.path_idle (by rw [hholder]; decide)
    exact ⟨hs.exclusive, fun h => absurd rfl h, hs.path, fun h => absurd hpath h⟩

theorem inv_send (hs : Inv s) (neigh : Bool) (hturn : InTurn s (.send neigh)) :
    Inv (step s (.send neigh)) := by
  unfold step
  dsimp only
  split
  · next hfree =>
    have hnic : s.nicPc = .idle := hs.nic_idle (by rw [hfree.2]; decide)
    exact ⟨hs.exclusive, fun h => absurd hnic h, fun _ => rfl, fun _ _ => hturn hfree.2⟩
  · exact hs

/-- The thread for path requests unlocks what it holds. -/
theorem inv_pathUnlock (hs : Inv s) (h : s.pathPc ≠ .idle) :
    Inv { unlock .path s with pathPc := .idle } := by
  have hholder := hs.path h
  have hnic : s.nicPc = .idle := hs.nic_idle (by rw [hholder]; decide)
  refine ⟨⟨hs.exclusive.1, ?_⟩, fun h => absurd hnic h, fun h => absurd rfl h,
    fun h => absurd rfl h⟩
  simp [unlock, hholder, hs.exclusive.2]

/-- It writes the buffer, or returns with the mutex locked. -/
theorem inv_pathWrite (hs : Inv s) {neigh : Bool} (h : s.pathPc = .fill neigh) (pc : PathPc) :
    Inv { writeBuffer s with pathPc := pc } := by
  have hholder := hs.path (by rw [h]; exact PathPc.noConfusion)
  have hdone := hs.fresh (by rw [h]; exact PathPc.noConfusion) (by rw [h]; exact PathPc.noConfusion)
  have hnic : s.nicPc = .idle := hs.nic_idle (by rw [hholder]; decide)
  refine ⟨⟨?_, hs.exclusive.2⟩, fun h => absurd hnic h, fun _ => hholder, fun _ _ => hdone⟩
  simp [writeBuffer, hdone, hs.exclusive.1]

theorem inv_pathNext (hs : Inv s) (txPkt ndpc : Bool) :
    Inv (step s (.pathNext txPkt ndpc false)) := by
  unfold step pathNext
  dsimp only
  split
  · exact hs
  · next hpc =>
    split
    · exact inv_pathWrite hs hpc _
    · exact inv_pathUnlock hs (by rw [hpc]; exact PathPc.noConfusion)
  · next hpc =>
    split
    · exact inv_pathWrite hs hpc _
    · exact ⟨hs.exclusive, hs.nic, fun h => absurd rfl h, fun h => absurd rfl h⟩
  · next hpc =>
    have hholder := hs.path (by rw [hpc]; exact PathPc.noConfusion)
    have hnic : s.nicPc = .idle := hs.nic_idle (by rw [hholder]; decide)
    exact ⟨hs.exclusive, fun h => absurd hnic h, fun _ => hholder, fun _ h => absurd rfl h⟩
  · next hpc => exact inv_pathUnlock hs (by rw [hpc]; exact PathPc.noConfusion)

theorem inv_step (s : State) (e : Event) (hs : Inv s) (hturn : InTurn s e) : Inv (step s e) := by
  cases e with
  | write => exact inv_write hs hturn
  | queue => exact ⟨hs.exclusive, hs.nic, hs.path, hs.fresh⟩
  | intr => exact inv_intr hs hturn
  | nicNext closed =>
    obtain rfl : closed = false := hturn
    exact inv_nicNext hs
  | send neigh => exact inv_send hs neigh hturn
  | pathNext txPkt ndpc closed =>
    obtain rfl : closed = false := hturn
    exact inv_pathNext hs txPkt ndpc
  | complete =>
    refine ⟨hs.exclusive, fun h => ⟨(hs.nic h).1, ?_⟩, hs.path, fun h h' => ?_⟩
    · exact Nat.sub_eq_zero_of_le (Nat.le_of_eq (hs.nic h).2 |>.trans (Nat.zero_le 1))
    · exact Nat.sub_eq_zero_of_le (Nat.le_of_eq (hs.fresh h h') |>.trans (Nat.zero_le 1))

/-- In every run whose steps come in turn the buffer is used by one packet at a time, and
the mutex unlocked only by the thread that holds it. -/
theorem buffer_exclusive (es : List Event) (h : Guarded step InTurn initial es) :
    Exclusive (run step initial es) :=
  (h.run_invariant inv_step inv_initial).exclusive

/-- A packet of the NIC's thread, its completion and its interrupt, then an ARP request. -/
def inTurn : List Event :=
  [.write, .nicNext false, .nicNext false, .complete, .intr, .send false,
    .pathNext true true false, .pathNext true true false, .pathNext true true false, .complete]

instance (s : State) : (e : Event) → Decidable (InTurn s e)
  | .write | .send _ => inferInstanceAs (Decidable (s.holder = none → s.inFlight = 0))
  | .intr => inferInstanceAs (Decidable (s.holder = some .nic ∧ s.inFlight = 0))
  | .nicNext closed | .pathNext _ _ closed => inferInstanceAs (Decidable (closed = false))
  | .queue | .complete => inferInstanceAs (Decidable True)

theorem buffer_exclusive_in_turn : Exclusive (run step initial inTurn) :=
  buffer_exclusive inTurn ⟨by decide, by decide, by decide, by decide, by decide, by decide,
    by decide, by decide, by decide, by decide, trivial⟩

/-- A receive interrupt while a packet of the NIC's thread is under way frees the mutex, and
an ARP request overwrites the packet; an interrupt while an ARP request is prepared
unlocks the other thread's mutex. -/
theorem buffer_shared :
    (run step initial [.write, .nicNext false, .nicNext false, .intr, .send false,
        .pathNext true true false]).overwritten = true ∧
      (run step initial [.send false, .intr]).stolen = true := by
  decide

end TxBuffer
