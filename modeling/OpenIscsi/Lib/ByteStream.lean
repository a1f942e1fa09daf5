import Mathlib

/-!
# Retry loops around short reads and short writes

A call on a stream socket moves any number of elements between one and what was
asked for, reports that it would block, or fails. The list of events says what
the calls do; a loop that still waits when the events end has no result yet.
-/

namespace ByteStream

open List

variable {α : Type}

/-- What one call does: it moves at most `n + 1` elements, would block, or fails. -/
inductive Event where
  | chunk (n : Nat)
  | again
  | broken
  deriving DecidableEq, Repr

/-- No call fails. -/
def Sound (events : List Event) : Prop := Event.broken ∉ events

instance (events : List Event) : Decidable (Sound events) :=
  inferInstanceAs (Decidable (Event.broken ∉ events))

/-- How many calls move something. -/
def chunks (events : List Event) : Nat :=
  events.countP (fun e => match e with | .chunk _ => true | _ => false)

theorem Sound.tail {e : Event} {events : List Event} (h : Sound (e :: events)) : Sound events :=
  fun hmem => h (mem_cons_of_mem e hmem)

/-! ## Reading -/

structure Reading (α : Type) where
  complete : Bool
  got : List α
  stream : List α
  events : List Event
  deriving DecidableEq, Repr

/-- Read until `k` more elements are there; the end of the stream is a failure. -/
def readLoop : List Event → Nat → List α → List α → Option (Reading α)
  | events, 0, got, stream => some ⟨true, got, stream, events⟩
  | [], _ + 1, _, _ => none
  | .again :: events, k + 1, got, stream => readLoop events (k + 1) got stream
  | .broken :: events, _ + 1, got, stream => some ⟨false, got, stream, events⟩
  | .chunk n :: events, k + 1, got, stream =>
    let m := min (n + 1) (min (k + 1) stream.length)
    if m = 0 then some ⟨false, got, stream, events⟩
    else readLoop events (k + 1 - m) (got ++ stream.take m) (stream.drop m)

variable (events : List Event) (k : Nat) (got stream : List α) (r : Reading α)

theorem chunks_cons (n : Nat) : chunks (.chunk n :: events) = chunks events + 1 :=
  countP_cons_of_pos rfl

/-- A read loop never takes more than it was asked for, and one that completes has read the
next `k` elements, however they came. -/
theorem readLoop_spec (h : readLoop events k got stream = some r) :
    r.got.length ≤ got.length + k ∧ (r.complete = true →
      k ≤ stream.length ∧ r.got = got ++ stream.take k ∧ r.stream = stream.drop k) := by
  induction events, k, got, stream using readLoop.induct with
  | case1 events got stream =>
    rw [readLoop] at h
    obtain rfl := Option.some.inj h
    rw [take_zero, append_nil, drop_zero]
    exact ⟨Nat.le_refl _, fun _ => ⟨Nat.zero_le _, rfl, rfl⟩⟩
  | case2 k got stream => exact nomatch h
  | case3 events k got stream ih =>
    rw [readLoop] at h
    exact ih h
  | case4 events k got stream =>
    rw [readLoop] at h
    obtain rfl := Option.some.inj h
    exact ⟨Nat.le_add_right _ _, fun hc => absurd hc Bool.false_ne_true⟩
  | case5 n events k got stream m hm =>
    rw [readLoop] at h
    rw [if_pos hm] at h
    obtain rfl := Option.some.inj h
    exact ⟨Nat.le_add_right _ _, fun hc => absurd hc Bool.false_ne_true⟩
  | case6 n events k got stream m hm ih =>
    rw [readLoop] at h
    rw [if_neg hm] at h
    obtain ⟨hnext, hall⟩ := ih h
    have hle : m ≤ k + 1 := by omega
    have hlen : m ≤ stream.length := by omega
    have hsum : m + (k + 1 - m) = k + 1 := by omega
    simp only [length_append, length_take] at hnext
    refine ⟨by omega, fun hc => ?_⟩
    obtain ⟨hk, hgot, hstream⟩ := hall hc
    rw [length_drop] at hk
    refine ⟨by omega, ?_, ?_⟩
    · rw [hgot, append_assoc, ← take_add, hsum]
    · rw [hstream, drop_drop, hsum]

/-- On a long enough stream and without failures, a loop that returns completes. -/
theorem readLoop_reads
    (hs : Sound events) (hk : k ≤ stream.length) (h : readLoop events k got stream = some r) :
    r.complete = true ∧ Sound r.events ∧ chunks events ≤ chunks r.events + k := by
  induction events, k, got, stream using readLoop.induct with
  | case1 events got stream =>
    rw [readLoop] at h
    obtain rfl := Option.some.inj h
    exact ⟨rfl, hs, Nat.le_refl _⟩
  | case2 k got stream => exact nomatch h
  | case3 events k got stream ih =>
    rw [readLoop] at h
    exact ih hs.tail hk h
  | case4 events k got stream => exact absurd mem_cons_self hs
  | case5 n events k got stream m hm => omega
  | case6 n events k got stream m hm ih =>
    rw [readLoop] at h
    rw [if_neg hm] at h
    obtain ⟨hc, hsound, hcount⟩ := ih hs.tail (by rw [length_drop]; omega) h
    rw [chunks_cons]
    exact ⟨hc, hsound, by omega⟩

/-- What stands at the front of the stream is read whole. -/
theorem readLoop_append (xs rest : List α) (r : Reading α)
    (hs : Sound events) (h : readLoop events xs.length [] (xs ++ rest) = some r) :
    r = ⟨true, xs, rest, r.events⟩ ∧ Sound r.events ∧
      chunks events ≤ chunks r.events + xs.length := by
  have hk : xs.length ≤ (xs ++ rest).length := by
    rw [length_append]
    exact Nat.le_add_right _ _
  obtain ⟨hc, hsound, hcount⟩ := readLoop_reads _ _ _ _ r hs hk h
  obtain ⟨_, hgot, hstream⟩ := (readLoop_spec _ _ _ _ r h).2 hc
  rw [nil_append, take_left' rfl] at hgot
  rw [drop_left' rfl] at hstream
  refine ⟨?_, hsound, hcount⟩
  rw [← hc, ← hgot, ← hstream]

/-- Enough calls that move something end the loop. -/
theorem readLoop_returns
    (hk : k ≤ chunks events) : ∃ r, readLoop events k got stream = some r := by
  induction events, k, got, stream using readLoop.induct with
  | case1 events got stream => exact ⟨_, by rw [readLoop]⟩
  | case2 k got stream => exact absurd hk (Nat.not_succ_le_zero k)
  | case3 events k got stream ih =>
    rw [readLoop]
    exact ih hk
  | case4 events k got stream => exact ⟨_, by rw [readLoop]⟩
  | case5 n events k got stream m hm =>
    rw [readLoop]
    rw [if_pos hm]
    exact ⟨_, rfl⟩
  | case6 n events k got stream m hm ih =>
    rw [readLoop]
    rw [if_neg hm]
    apply ih
    rw [chunks_cons] at hk
    omega

/-! ## Writing -/

/-- The outcome of a write loop: what the other side got, and the events left. -/
structure Writing (α : Type) where
  complete : Bool
  sent : List α
  events : List Event
  deriving DecidableEq, Repr

/-- Write until nothing is left. -/
def writeLoop : List Event → List α → List α → Option (Writing α)
  | events, [], sent => some ⟨true, sent, events⟩
  | [], _ :: _, _ => none
  | .again :: events, x :: rest, sent => writeLoop events (x :: rest) sent
  | .broken :: events, _ :: _, sent => some ⟨false, sent, events⟩
  | .chunk n :: events, x :: rest, sent =>
    writeLoop events ((x :: rest).drop (n + 1)) (sent ++ (x :: rest).take (n + 1))

def afterMoving : Nat → List Event → List Event
  | 0, events => events
  | _ + 1, [] => []
  | k + 1, .chunk n :: events => afterMoving (k - n) events
  | k + 1, .again :: events => afterMoving (k + 1) events
  | k + 1, .broken :: events => afterMoving (k + 1) events

/-- A write loop that completes has sent everything once, in order, and used the events up to
its last element. -/
theorem writeLoop_spec (rest sent : List α) (w : Writing α)
    (h : writeLoop events rest sent = some w) (hc : w.complete = true) :
    w.sent = sent ++ rest ∧ w.events = afterMoving rest.length events := by
  induction events, rest, sent using writeLoop.induct with
  | case1 events sent =>
    rw [writeLoop] at h
    obtain rfl := Option.some.inj h
    rw [append_nil, length_nil, afterMoving]
    exact ⟨rfl, rfl⟩
  | case2 x rest sent => exact nomatch h
  | case3 events x rest sent ih =>
    rw [writeLoop] at h
    obtain ⟨hsent, hevents⟩ := ih h
    rw [length_cons] at hevents ⊢
    rw [afterMoving]
    exact ⟨hsent, hevents⟩
  | case4 events x rest sent =>
    rw [writeLoop] at h
    obtain rfl := Option.some.inj h
    exact nomatch hc
  | case5 n events x rest sent ih =>
    rw [writeLoop] at h
    obtain ⟨hsent, hevents⟩ := ih h
    have hleft : ((x :: rest).drop (n + 1)).length = rest.length - n := by
      rw [drop_succ_cons, length_drop]
    rw [hsent, hevents, hleft, append_assoc, take_append_drop, length_cons,
      afterMoving]
    exact ⟨rfl, rfl⟩

end ByteStream
