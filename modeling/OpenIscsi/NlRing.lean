import Mathlib

/-!
# The ring of path requests of a NIC in iscsiuio

The netlink thread (`nic_nl_open`) puts path requests on a ring and signals, the NIC's
own thread (`nl_process_handle_thread`) waits, takes and handles them. Each step of the
model is one critical section of one thread, and a run is any order of steps. A buffer
is named by the number of buffers obtained before it.
-/

namespace NlRing

open List

abbrev Buf := Nat

def nicNlProcessMaxRingSize : Nat := 128
def nicNlProcessLastEntry : Nat := nicNlProcessMaxRingSize - 1

def nicNlProcessNextEntry (x : Nat) : Nat := (x + 1) &&& nicNlProcessMaxRingSize

/-- Where the NIC's thread is: before its wait, in the wait, woken but without the
mutex, with what it took from the ring, or cancelled. -/
inductive Consumer where
  | outside
  | asleep
  | woken
  | handling (data : Option Buf)
  | cancelled
  deriving DecidableEq, Repr

/-- The ring and the NIC's thread, and what happened so far: buffers obtained,
requests put on the ring, flushed, handled, buffers freed, and for each request
that was refused how many were on the ring. -/
structure State where
  ring : List (Option Buf)
  head : Nat
  tail : Nat
  consumer : Consumer
  pulled : List Buf
  queued : List Buf
  flushed : List Buf
  handled : List Buf
  freed : List Buf
  refused : List Nat
  deriving DecidableEq, Repr

def initial : State :=
  ⟨List.replicate nicNlProcessMaxRingSize none, 0, 0, .outside, [], [], [], [], [], []⟩

def pending (s : State) : List Buf := (s.ring.drop s.tail ++ s.ring.take s.tail).filterMap id

/-- `ev->type`. -/
inductive Kevent where
  | pathReq | ifDown | other
  deriving DecidableEq, Repr

/-- What the NIC's thread does on its own. -/
inductive Own where
  | wait
  | wake
  | take
  | handle
  deriving DecidableEq, Repr

/-- A message that `pull_from_nl` returns, with whether the NIC is found, or a step of
the NIC's thread. -/
inductive Step where
  | message (ev : Kevent) (found : Bool)
  | own (o : Own)
  deriving DecidableEq, Repr

/-- `pthread_cond_signal`: lost unless the thread waits. -/
def signal : Consumer → Consumer
  | .asleep => .woken
  | c => c

def flushNicNlProcessRing (s : State) : State :=
  { s with
    ring := s.ring.map (fun _ => none)
    head := 0
    tail := 0
    flushed := s.flushed ++ pending s
    freed := s.freed ++ pending s }

/-- The test for a full ring. -/
def noSpace (s : State) : Bool :=
  s.head + 1 = s.tail ∨ (s.tail = 0 ∧ s.head = nicNlProcessLastEntry)

def nicNlOpen (ev : Kevent) (found : Bool) (s : State) : State :=
  let buf := s.pulled.length
  let s := { s with pulled := s.pulled ++ [buf] }
  match ev with
  | .other => s
  | .ifDown =>
    if !found || s.consumer = .cancelled then s
    else { flushNicNlProcessRing s with consumer := .cancelled }
  | .pathReq =>
    if !found || s.consumer = .cancelled then s
    else if noSpace s then { s with refused := s.refused ++ [(pending s).length] }
    else
      { s with
        ring := s.ring.set s.head (some buf)
        head := nicNlProcessNextEntry s.head
        queued := s.queued ++ [buf]
        consumer := signal s.consumer }

def nlProcessHandleThread (o : Own) (s : State) : State :=
  match o, s.consumer with
  | .wait, .outside => { s with consumer := .asleep }
  | .wake, .asleep => { s with consumer := .woken }
  | .take, .woken =>
    { s with
      consumer := .handling (s.ring.getD s.head none)
      ring := s.ring.set s.head none
      tail := nicNlProcessNextEntry s.tail }
  | .handle, .handling none => { s with consumer := .outside }
  | .handle, .handling (some data) =>
    { s with consumer := .outside, handled := s.handled ++ [data], freed := s.freed ++ [data] }
  | _, _ => s

def step (s : State) : Step → State
  | .message ev found => nicNlOpen ev found s
  | .own o => nlProcessHandleThread o s

def run (steps : List Step) (s : State) : State := steps.foldl step s

/-! ## Delivery -/

/-- What the NIC's thread holds. -/
def inHand (s : State) : List Buf :=
  match s.consumer with
  | .handling data => data.toList
  | _ => []

/-- No request is lost, doubled or out of order, a thread that waits has nothing to
do, requests are refused only by a full ring, and every buffer is freed once or in use. -/
structure Delivered (s : State) : Prop where
  order : s.queued.filter (fun b => b ∉ s.flushed) = s.handled ++ inHand s ++ pending s
  awake : s.consumer = .asleep → pending s = []
  full : ∀ k ∈ s.refused, k = nicNlProcessMaxRingSize - 1
  freed : (s.freed ++ inHand s ++ pending s).Perm s.pulled

/-- The step finds the NIC's thread in its wait and the ring empty, if it is a message;
and the message is a path request of the NIC. -/
def Timely (s : State) : Step → Prop
  | .message ev found =>
    ev = .pathReq ∧ found = true ∧ (s.consumer = .asleep ∨ s.consumer = .woken) ∧ pending s = []
  | .own _ => True

def TimelyRun : List Step → State → Prop
  | [], _ => True
  | st :: steps, s => Timely s st ∧ TimelyRun steps (step s st)

/-! ## One slot

The next entry of the first entry is the first entry: the ring works as one slot. -/

theorem nicNlProcessNextEntry_zero : nicNlProcessNextEntry 0 = 0 := by decide

/-- Only the first slot is in use, with `x` in it, and all went well so far. -/
structure OneSlot (s : State) (x : Option Buf) : Prop where
  ring : s.ring = x :: List.replicate nicNlProcessLastEntry none
  head : s.head = 0
  tail : s.tail = 0
  flushed : s.flushed = []
  refused : s.refused = []
  running : s.consumer ≠ .cancelled
  awake : s.consumer ≠ .woken → x = none
  freed : s.freed = s.handled
  queued : s.queued = s.handled ++ inHand s ++ x.toList
  pulled : s.pulled = s.queued

variable {s : State} {x : Option Buf}

theorem pending_slot
    (hring : s.ring = x :: List.replicate nicNlProcessLastEntry none) (htail : s.tail = 0) :
    pending s = x.toList := by
  have hnone : (List.replicate nicNlProcessLastEntry (none : Option Buf)).filterMap id = [] := by
    decide
  unfold pending
  rw [htail, hring, drop_zero, take_zero, append_nil, filterMap_cons, hnone]
  cases x <;> rfl

theorem OneSlot.pending_eq (h : OneSlot s x) :
    pending s = x.toList := pending_slot h.ring h.tail

theorem OneSlot.delivered (h : OneSlot s x) : Delivered s where
  order := by
    rw [h.flushed, h.pending_eq, ← h.queued]
    exact filter_eq_self.mpr (fun b _ => by simp)
  awake := by
    intro hasleep
    rw [h.pending_eq, h.awake (by rw [hasleep]; exact fun hw => (nomatch hw))]
    rfl
  full := by
    rw [h.refused]
    exact fun k hk => (nomatch hk)
  freed := by
    rw [h.pulled, h.freed, h.pending_eq, h.queued]

theorem initial_oneSlot : OneSlot initial none where
  ring := rfl
  head := rfl
  tail := rfl
  flushed := rfl
  refused := rfl
  running := fun h => (nomatch h)
  awake := fun _ => rfl
  freed := rfl
  queued := rfl
  pulled := rfl

/-- The steps of the NIC's thread keep this. -/
theorem OneSlot.own (h : OneSlot s x) (o : Own) :
    ∃ y, OneSlot (nlProcessHandleThread o s) y := by
  have hqueued := h.queued
  unfold inHand at hqueued
  unfold nlProcessHandleThread
  split
  · -- the wait begins
    rename_i hc
    rw [hc] at hqueued
    have hx : x = none := h.awake (by rw [hc]; exact fun hw => (nomatch hw))
    exact ⟨x, h.ring, h.head, h.tail, h.flushed, h.refused, fun hw => (nomatch hw), fun _ => hx,
      h.freed, hqueued, h.pulled⟩
  · -- the wait ends
    rename_i hc
    rw [hc] at hqueued
    exact ⟨x, h.ring, h.head, h.tail, h.flushed, h.refused, fun hw => (nomatch hw),
      fun hw => absurd rfl hw, h.freed, hqueued, h.pulled⟩
  · -- the slot is taken
    rename_i hc
    rw [hc, append_nil] at hqueued
    refine ⟨none, ?_, h.head, ?_, h.flushed, h.refused, fun hw => (nomatch hw), fun _ => rfl,
      h.freed, ?_, h.pulled⟩
    · change s.ring.set s.head none = _
      rw [h.head, h.ring, set_cons_zero]
    · change nicNlProcessNextEntry s.tail = 0
      rw [h.tail, nicNlProcessNextEntry_zero]
    · change s.queued = s.handled ++ (s.ring.getD s.head none).toList ++ []
      rw [h.head, h.ring, getD_cons_zero, append_nil]
      exact hqueued
  · -- nothing was taken
    rename_i hc
    rw [hc] at hqueued
    have hx : x = none := h.awake (by rw [hc]; exact fun hw => (nomatch hw))
    exact ⟨x, h.ring, h.head, h.tail, h.flushed, h.refused, fun hw => (nomatch hw), fun _ => hx,
      h.freed, hqueued, h.pulled⟩
  · -- a request is handled
    rename_i data hc
    rw [hc] at hqueued
    have hx : x = none := h.awake (by rw [hc]; exact fun hw => (nomatch hw))
    refine ⟨x, h.ring, h.head, h.tail, h.flushed, h.refused, fun hw => (nomatch hw), fun _ => hx,
      ?_, ?_, h.pulled⟩
    · change s.freed ++ [data] = s.handled ++ [data]
      rw [h.freed]
    · change s.queued = s.handled ++ [data] ++ [] ++ x.toList
      rw [append_nil]
      exact hqueued
  · exact ⟨x, h⟩

/-- The ring is never full: a path request is put in the slot, whatever is in it. -/
theorem OneSlot.queues (h : OneSlot s x) :
    nicNlOpen .pathReq true s =
      { s with
        pulled := s.pulled ++ [s.pulled.length]
        ring := some s.pulled.length :: List.replicate nicNlProcessLastEntry none
        queued := s.queued ++ [s.pulled.length]
        consumer := signal s.consumer } := by
  have hspace : noSpace { s with pulled := s.pulled ++ [s.pulled.length] } = false := by
    unfold noSpace
    dsimp only
    rw [h.head, h.tail]
    decide
  unfold nicNlOpen
  dsimp only
  rw [if_neg (by simp [h.running]), if_neg (by rw [hspace]; exact Bool.false_ne_true), h.head,
    h.ring, set_cons_zero, nicNlProcessNextEntry_zero, ← h.head]

/-- A path request that finds the thread in its wait and the slot empty keeps it too. -/
theorem OneSlot.request (h : OneSlot s x)
    (hwait : s.consumer = .asleep ∨ s.consumer = .woken) (hempty : pending s = []) :
    ∃ y, OneSlot (nicNlOpen .pathReq true s) y := by
  have hx : x = none := by
    rw [h.pending_eq] at hempty
    exact Option.toList_eq_nil_iff.mp hempty
  have hhand : inHand s = [] := by
    unfold inHand
    cases hwait with
    | inl hc => rw [hc]
    | inr hc => rw [hc]
  have hsignal : signal s.consumer = .woken := by
    cases hwait with
    | inl hc => rw [hc]; rfl
    | inr hc => rw [hc]; rfl
  have hqueued := h.queued
  rw [hhand, hx] at hqueued
  rw [h.queues, hsignal]
  refine ⟨some s.pulled.length, rfl, h.head, h.tail, h.flushed, h.refused, fun hw => (nomatch hw),
    fun hw => absurd rfl hw, h.freed, ?_, ?_⟩
  · change s.queued ++ [s.pulled.length] = s.handled ++ [] ++ [s.pulled.length]
    rw [hqueued]
    simp only [Option.toList_none, append_nil]
  · change s.pulled ++ [s.pulled.length] = s.queued ++ [s.pulled.length]
    rw [← h.pulled]

theorem OneSlot.step (h : OneSlot s x) {st : Step}
    (ht : Timely s st) : ∃ y, OneSlot (step s st) y := by
  cases st with
  | message ev found =>
    obtain ⟨rfl, rfl, hwait, hempty⟩ := ht
    exact h.request hwait hempty
  | own o => exact h.own o

theorem OneSlot.run (h : OneSlot s x) (steps : List Step)
    (ht : TimelyRun steps s) : ∃ y, OneSlot (run steps s) y := by
  induction steps generalizing s x with
  | nil => exact ⟨x, h⟩
  | cons st steps ih =>
    obtain ⟨y, hy⟩ := h.step ht.1
    exact ih hy ht.2

/-- With fewer buffers freed or in use than obtained, one is lost. -/
theorem not_delivered_of_lost
    (h : (s.freed ++ inHand s ++ pending s).length < s.pulled.length) : ¬ Delivered s :=
  fun hd => absurd hd.freed.length_eq (Nat.ne_of_lt h)

/-- A thread that waits with a request in the slot does not get to it. -/
theorem not_delivered_of_stuck {b : Buf}
    (hring : s.ring = some b :: List.replicate nicNlProcessLastEntry none) (htail : s.tail = 0)
    (hasleep : s.consumer = .asleep) : ¬ Delivered s := by
  intro hd
  have hnone := hd.awake hasleep
  rw [pending_slot hring htail] at hnone
  exact nomatch hnone

/-- With one request in the slot and two buffers that are not freed, one is lost. -/
theorem not_delivered_of_overwritten {b : Buf}
    (hring : s.ring = some b :: List.replicate nicNlProcessLastEntry none) (htail : s.tail = 0)
    (hlen : (s.freed ++ inHand s).length + 1 < s.pulled.length) : ¬ Delivered s := by
  apply not_delivered_of_lost
  rw [length_append, pending_slot hring htail]
  exact hlen

theorem OneSlot.pulled_length (h : OneSlot s x) :
    (s.freed ++ inHand s ++ pending s).length = s.pulled.length := by
  rw [h.pulled, h.queued, h.freed, h.pending_eq]

/-- A message that is dropped is never freed. -/
theorem OneSlot.dropped (h : OneSlot s x) (buf : Buf) :
    ¬ Delivered { s with pulled := s.pulled ++ [buf] } := by
  apply not_delivered_of_lost
  change (s.freed ++ inHand s ++ pending s).length < (s.pulled ++ [buf]).length
  rw [h.pulled_length, length_append]
  exact Nat.lt_succ_self _

/-- Nor is the message that tells of an interface going down. -/
theorem OneSlot.ifDown (h : OneSlot s x) (found : Bool) :
    ¬ Delivered (nicNlOpen .ifDown found s) := by
  unfold nicNlOpen
  dsimp only
  split
  · exact h.dropped _
  · apply not_delivered_of_lost
    have hflush : pending (flushNicNlProcessRing
        { s with pulled := s.pulled ++ [s.pulled.length] }) = [] := by
      apply pending_slot (x := none)
      · change s.ring.map (fun _ => none) = _
        rw [h.ring, map_cons, map_replicate]
      · rfl
    have hle := h.pulled_length
    rw [length_append, length_append] at hle
    change (s.freed ++ pending s ++ [] ++ pending (flushNicNlProcessRing
      { s with pulled := s.pulled ++ [s.pulled.length] })).length <
        (s.pulled ++ [s.pulled.length]).length
    rw [hflush, append_nil, append_nil, length_append, length_append,
      length_singleton]
    omega

/-- After a step that is not timely the NIC's thread gets to a state where a request or
a buffer is lost, or where it waits with a request on the ring. -/
theorem OneSlot.untimely (h : OneSlot s x) {st : Step}
    (ht : ¬ Timely s st) :
    ∃ own : List Own, ¬ Delivered (NlRing.run (own.map Step.own) (NlRing.step s st)) := by
  cases st with
  | own o => exact absurd trivial ht
  | message ev found =>
    cases ev with
    | other => exact ⟨[], h.dropped _⟩
    | ifDown => exact ⟨[], h.ifDown found⟩
    | pathReq =>
      cases found with
      | false => exact ⟨[], h.dropped _⟩
      | true =>
        have hstep : NlRing.step s (.message .pathReq true) = _ := h.queues
        rw [hstep]
        cases hc : s.consumer with
        | cancelled => exact absurd hc h.running
        | asleep =>
          have hx : x = none := h.awake (by rw [hc]; exact fun hw => (nomatch hw))
          exact absurd ⟨rfl, rfl, Or.inl hc, by rw [h.pending_eq, hx]; rfl⟩ ht
        | woken =>
          -- the request in the slot is overwritten
          refine ⟨[], not_delivered_of_overwritten (b := s.pulled.length) rfl h.tail ?_⟩
          have hpending : pending s ≠ [] := fun hp => ht ⟨rfl, rfl, Or.inr hc, hp⟩
          have hpos : 0 < (pending s).length := length_pos_iff.mpr hpending
          have hlen := h.pulled_length
          have hhand : inHand s = [] := by
            unfold inHand
            rw [hc]
          rw [hhand, append_nil, length_append] at hlen
          change (s.freed ++ []).length + 1 < (s.pulled ++ [s.pulled.length]).length
          rw [append_nil, length_append, length_singleton]
          omega
        | outside =>
          -- the signal is lost
          exact ⟨[.wait], not_delivered_of_stuck (b := s.pulled.length) rfl h.tail rfl⟩
        | handling data =>
          refine ⟨[.handle, .wait], ?_⟩
          cases data with
          | none => exact not_delivered_of_stuck (b := s.pulled.length) rfl h.tail rfl
          | some _ => exact not_delivered_of_stuck (b := s.pulled.length) rfl h.tail rfl

/-- The steps of the NIC's thread are timely. -/
theorem timelyRun_own (own : List Own) (s : State) : TimelyRun (own.map Step.own) s := by
  induction own generalizing s with
  | nil => trivial
  | cons o own ih => exact ⟨trivial, ih _⟩

/-- A timely run can go on with steps of the NIC's thread, from every state in it. -/
theorem TimelyRun.take_own {steps : List Step} (h : TimelyRun steps s) (n : Nat) (own : List Own) :
    TimelyRun (steps.take n ++ own.map Step.own) s := by
  induction steps generalizing s n with
  | nil =>
    rw [take_nil]
    exact timelyRun_own own s
  | cons st steps ih =>
    cases n with
    | zero => exact timelyRun_own own s
    | succ n => exact ⟨h.1, ih h.2 n⟩

/-- In every state of a run, however the NIC's thread goes on, requests are delivered
once and in order and no buffer is lost, if and only if every message of the run is a
path request that finds the thread in its wait and the ring empty. -/
theorem path_requests_delivered_iff (steps : List Step) :
    (∀ (n : Nat) (own : List Own),
      Delivered (run (steps.take n ++ own.map Step.own) initial)) ↔
      TimelyRun steps initial := by
  constructor
  · have hgen : ∀ (s : State) (x : Option Buf), OneSlot s x →
        (∀ (n : Nat) (own : List Own), Delivered (run (steps.take n ++ own.map Step.own) s)) →
        TimelyRun steps s := by
      induction steps with
      | nil => exact fun _ _ _ _ => trivial
      | cons st steps ih =>
        intro s x hs hd
        have ht : Timely s st := by
          by_contra hnot
          obtain ⟨own, hown⟩ := hs.untimely hnot
          exact hown (hd 1 own)
        obtain ⟨y, hy⟩ := hs.step ht
        exact ⟨ht, ih (step s st) y hy (fun n own => hd (n + 1) own)⟩
    exact hgen initial none initial_oneSlot
  · intro ht n own
    obtain ⟨x, hx⟩ := initial_oneSlot.run _ (ht.take_own n own)
    exact hx.delivered

/-- Two requests before the thread has the mutex again: the first is lost. -/
def twoRequests : List Step :=
  [.own .wait, .message .pathReq true, .message .pathReq true, .own .take, .own .handle,
    .own .wait]

/-- Both are put on the ring, one is handled and one buffer is freed. -/
theorem second_request_overwrites :
    (run twoRequests initial).queued = [0, 1] ∧ (run twoRequests initial).flushed = [] ∧
      (run twoRequests initial).handled = [1] ∧ (run twoRequests initial).freed = [1] ∧
      pending (run twoRequests initial) = [] ∧ (run twoRequests initial).consumer = .asleep ∧
      ¬ Delivered (run twoRequests initial) := by
  refine ⟨by decide, by decide, by decide, by decide, by decide, by decide, fun hd => ?_⟩
  exact absurd hd.order (by decide)

end NlRing
