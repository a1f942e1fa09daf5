import OpenIscsi.Lib.ByteMemory

/-!
# The log area

`log_enqueue` and `log_dequeue` of `log.c`: messages of any length in a circular area,
with the first and the last message and a flag for an empty area. Addresses are
offsets into the area; the string of a message starts at its `str` field.
-/

namespace LogArea

open CString ByteMemory List

def maxMsgSize : Nat := 256
def sizeofLogmsg : Nat := 24
def nextField : Nat := 8
def strField : Nat := 16

/-- `struct logarea` and the bytes of the area. -/
structure Log where
  mem : Mem
  head : Nat
  tail : Nat
  empty : Bool

/-- A message, as the daemon logs it. -/
structure Msg where
  prio : UInt16
  text : List UInt8
  deriving DecidableEq, Repr

/-- A write into the area: where and how many bytes. -/
abbrev Write := Nat × Nat

def strAt (size : Nat) (mem : Mem) (p : Nat) : List UInt8 := loadStr mem (p + strField) size

def format (text : List UInt8) : List UInt8 := (strlcpy text maxMsgSize).1

/-- Put a message at `tail`, behind `lastmsg`. -/
def stage (mem : Mem) (head tail lastmsg : Nat) (m : Msg) : Mem :=
  let mem := storeNat mem tail 2 m.prio.toNat
  let mem := store mem (tail + strField) (m.text ++ [0])
  let mem := storeNat mem (lastmsg + nextField) 8 tail
  storeNat mem (tail + nextField) 8 head

def stageWrites (tail lastmsg : Nat) (m : Msg) : List Write :=
  [(tail, 2), (tail + strField, m.text.length + 1), (lastmsg + nextField, 8), (tail + nextField, 8)]

/-- `log_enqueue` of a formatted message: the area, whether the message was dropped
(the return value), and the writes. -/
def logEnqueue (size : Nat) (m : Msg) (la : Log) : Log × Bool × List Write :=
  let len := m.text.length + 1
  let tail :=
    if la.empty then la.tail
    else la.tail + (sizeofLogmsg + (strAt size la.mem la.tail).length + 1)
  -- not enough space on tail
  let rewind : Bool := la.head ≤ tail ∧ size < tail + (len + sizeofLogmsg)
  let newTail := if rewind then 0 else tail
  let head := if rewind && la.empty then 0 else la.head
  let lastmsg := if rewind && la.empty then 0 else la.tail
  -- not enough space on head
  if newTail < head ∧ head < newTail + (len + sizeofLogmsg) then
    ({ la with head := head, tail := if la.empty then newTail else lastmsg }, true, [])
  else
    (⟨stage la.mem head newTail lastmsg m, head, newTail, false⟩, false,
      stageWrites newTail lastmsg m)

/-- `log_dequeue`: the area, the message if there is one, and the writes. -/
def logDequeue (size : Nat) (la : Log) : Log × Option Msg × List Write :=
  if la.empty then (la, none, [])
  else
    let src := la.head
    let text := strAt size la.mem src
    let len := text.length + sizeofLogmsg + 1
    let m : Msg := ⟨UInt16.ofNat (loadNat la.mem src 2), text⟩
    if la.tail = la.head then
      ({ la with empty := true, mem := store la.mem src (List.replicate len 0) }, some m, [(src, len)])
    else
      let next := loadNat la.mem (src + nextField) 8
      let mem := storeNat la.mem (la.tail + nextField) 8 next
      (⟨store mem src (List.replicate len 0), next, la.tail, false⟩, some m,
        [(la.tail + nextField, 8), (src, len)])

def init : Log := ⟨fun _ => 0, 0, 0, true⟩

/-! ## Runs -/

inductive Op where
  | enqueue (prio : UInt16) (text : List UInt8)
  | dequeue
  deriving DecidableEq, Repr

/-- The area, the messages whose enqueue returned 0, those that were dequeued, and
the writes. -/
structure Run where
  la : Log
  accepted : List Msg
  returned : List Msg
  writes : List Write

def step (size : Nat) (r : Run) : Op → Run
  | .enqueue prio text =>
    let m : Msg := ⟨prio, format text⟩
    let (la, dropped, writes) := logEnqueue size m r.la
    { r with
      la := la
      accepted := if dropped then r.accepted else r.accepted ++ [m]
      writes := r.writes ++ writes }
  | .dequeue =>
    let (la, m, writes) := logDequeue size r.la
    { r with la := la, returned := r.returned ++ m.toList, writes := r.writes ++ writes }

def start : Run := ⟨init, [], [], []⟩

def run (size : Nat) (ops : List Op) (r : Run) : Run := ops.foldl (step size) r

/-- There is room for a message, or the code sees that there is none. An empty area has
to hold it. Behind a last message that is not wrapped it fits up to the end, or the first
message is not at the start. A wrapped area is not filled exactly, or the message fits
neither behind the last one up to the end nor before the first one. -/
def Roomy (size : Nat) (text : List UInt8) (la : Log) : Prop :=
  if la.empty then text.length + 1 + sizeofLogmsg ≤ size
  else
    (la.head ≤ la.tail →
      size < la.tail + (sizeofLogmsg + (strAt size la.mem la.tail).length + 1) +
        (text.length + 1 + sizeofLogmsg) → 0 < la.head) ∧
    (la.tail < la.head →
      la.tail + (sizeofLogmsg + (strAt size la.mem la.tail).length + 1) = la.head →
        size < la.head + (text.length + 1 + sizeofLogmsg) ∧
          la.head < text.length + 1 + sizeofLogmsg)

/-- Every enqueue of a run finds room or no room in this sense. -/
def RoomyRun (size : Nat) : List Op → Run → Prop
  | [], _ => True
  | .enqueue prio text :: ops, r =>
    Roomy size (format text) r.la ∧ RoomyRun size ops (step size r (.enqueue prio text))
  | .dequeue :: ops, r => RoomyRun size ops (step size r .dequeue)

/-! ## Messages in memory -/

/-- The bytes a message takes. -/
def recSize (m : Msg) : Nat := m.text.length + 1 + sizeofLogmsg

/-- A message as `log_enqueue` formats it. -/
structure Formed (m : Msg) : Prop where
  nulFree : NulFree m.text
  short : m.text.length < maxMsgSize

/-- The message at `p` in memory. -/
structure At (mem : Mem) (p : Nat) (m : Msg) : Prop where
  prio : loadNat mem p 2 = m.prio.toNat
  text : load mem (p + strField) (m.text.length + 1) = m.text ++ [0]

/-- The messages of a list in memory, each linked to the next one. -/
def Chain (mem : Mem) : List (Nat × Msg) → Prop
  | [] => True
  | [(p, m)] => At mem p m
  | (p, m) :: (q, m') :: recs =>
    At mem p m ∧ loadNat mem (p + nextField) 8 = q ∧ Chain mem ((q, m') :: recs)

/-- The range of `n` bytes at `q` has nothing of the message. -/
def Apart (r : Nat × Msg) (q n : Nat) : Prop := r.1 + recSize r.2 ≤ q ∨ q + n ≤ r.1

theorem format_formed (prio : UInt16) (text : List UInt8) : Formed ⟨prio, format text⟩ where
  nulFree := fun b hb => cstr_nulFree text b (mem_of_mem_take hb)
  short := by
    change ((cstr text).take (maxMsgSize - 1)).length < maxMsgSize
    rw [length_take]
    unfold maxMsgSize
    omega

variable {size : Nat} {la : Log} {hi : List (Nat × Msg)} {a b : Nat} {lo recs : List (Nat × Msg)}
  {msgs : List Msg}

variable {m : Msg} {p : Nat}

theorem At.strAt_eq {mem : Mem} (h : At mem p m) (hm : Formed m) (hsize : maxMsgSize ≤ size) :
    strAt size mem p = m.text :=
  loadStr_of_load hm.nulFree h.text (Nat.lt_of_lt_of_le hm.short hsize)

variable {bytes : List UInt8} {q : Nat}

/-- A write that misses what is read of the message keeps it. -/
theorem At.store {mem : Mem} (h : At mem p m) (hprio : p + 2 ≤ q ∨ q + bytes.length ≤ p)
    (htext : p + strField + (m.text.length + 1) ≤ q ∨ q + bytes.length ≤ p + strField) :
    At (store mem q bytes) p m where
  prio := by
    unfold loadNat
    rw [load_store_disjoint mem hprio]
    exact h.prio
  text := by
    rw [load_store_disjoint mem htext]
    exact h.text

variable {r : Nat × Msg}

theorem At.store_apart {mem : Mem} (h : At mem r.1 r.2) (hr : Apart r q bytes.length) :
    At (ByteMemory.store mem q bytes) r.1 r.2 := by
  unfold Apart recSize sizeofLogmsg at hr
  apply h.store
  · omega
  · unfold strField
    omega

theorem next_store_apart {mem : Mem} (hr : Apart r q bytes.length) :
    loadNat (ByteMemory.store mem q bytes) (r.1 + nextField) 8 = loadNat mem (r.1 + nextField) 8 := by
  unfold Apart recSize sizeofLogmsg at hr
  unfold loadNat
  rw [load_store_disjoint mem (by unfold nextField; omega)]

/-- A write apart from all messages keeps them. -/
theorem Chain.store {mem : Mem} (h : Chain mem recs) (hr : ∀ r ∈ recs, Apart r q bytes.length) :
    Chain (ByteMemory.store mem q bytes) recs := by
  induction recs with
  | nil => trivial
  | cons r recs ih =>
    have hhead := hr r mem_cons_self
    have htail := fun s hs => hr s (mem_cons_of_mem r hs)
    cases recs with
    | nil => exact At.store_apart (r := r) h hhead
    | cons s recs =>
      exact ⟨At.store_apart (r := r) h.1 hhead, (next_store_apart hhead).trans h.2.1,
        ih h.2.2 htail⟩

/-- A write to the last message's link keeps them too. -/
theorem Chain.store_link {mem : Mem} {l : Nat × Msg} (h : Chain mem (recs ++ [l]))
    (hr : ∀ r ∈ recs, Apart r (l.1 + nextField) 8) (n : Nat) :
    Chain (storeNat mem (l.1 + nextField) 8 n) (recs ++ [l]) := by
  have hlen := toBytes_length 8 n
  induction recs with
  | nil =>
    refine At.store (p := l.1) (m := l.2) h ?_ ?_
    · unfold nextField
      omega
    · rw [hlen]
      unfold nextField strField
      omega
  | cons r recs ih =>
    have hhead := hr r mem_cons_self
    have htail := fun s hs => hr s (mem_cons_of_mem r hs)
    rw [← hlen] at hhead
    cases recs <;>
      exact ⟨At.store_apart (r := r) h.1 hhead, (next_store_apart hhead).trans h.2.1,
        ih h.2.2 htail⟩

variable {t : Nat}

/-- One more message at the end of the chain. -/
theorem Chain.snoc {mem : Mem} {l : Nat × Msg} (h : Chain mem (recs ++ [l]))
    (hlink : loadNat mem (l.1 + nextField) 8 = t) (hm : At mem t m) :
    Chain mem (recs ++ [l] ++ [(t, m)]) := by
  induction recs with
  | nil => exact ⟨h, hlink, hm⟩
  | cons r recs ih => cases recs <;> exact ⟨h.1, h.2.1, ih h.2.2⟩

theorem Chain.tail {mem : Mem} (h : Chain mem (r :: recs)) : Chain mem recs := by
  cases recs with
  | nil => trivial
  | cons s recs => exact h.2.2

theorem Chain.head {mem : Mem} (h : Chain mem (r :: recs)) : At mem r.1 r.2 := by
  cases recs with
  | nil => exact h
  | cons s recs => exact h.1

theorem Chain.last {mem : Mem} {l : Nat × Msg} (h : Chain mem (recs ++ [l])) : At mem l.1 l.2 := by
  induction recs with
  | nil => exact h
  | cons r recs ih => exact ih h.tail

/-- A new message is at its place after it was staged, whether it is alone or behind a
message that is apart from it. -/
theorem stage_at (mem : Mem) {head l : Nat}
    (hl : l = t ∨ l + 16 ≤ t ∨ t + recSize m ≤ l + nextField) : At (stage mem head t l m) t m := by
  have hlen := toBytes_length 8
  have hsize : recSize m = m.text.length + 1 + 24 := rfl
  have hnext : nextField = 8 := rfl
  have hstr : strField = 16 := rfl
  have hprio : loadNat (storeNat mem t 2 m.prio.toNat) t 2 = m.prio.toNat :=
    loadNat_storeNat_same mem t (by have := m.prio.toNat_lt; omega)
  have hbytes : (m.text ++ [0]).length = m.text.length + 1 := length_append
  constructor
  · unfold stage storeNat
    unfold loadNat storeNat at *
    rw [load_store_disjoint _ (by rw [hlen]; omega), load_store_disjoint _ (by rw [hlen]; omega),
      load_store_disjoint _ (by omega)]
    exact hprio
  · unfold stage storeNat
    rw [load_store_disjoint _ (by rw [hlen]; omega), load_store_disjoint _ (by rw [hlen]; omega),
      ← hbytes, load_store_same]

/-- Staging behind a last message keeps the chain and adds the new message. -/
theorem Chain.stage {mem : Mem} {l : Nat × Msg} {head : Nat} (h : Chain mem (recs ++ [l]))
    (hlast : ∀ r ∈ recs, Apart r (l.1 + nextField) 8)
    (hnew : ∀ r ∈ recs ++ [l], Apart r t (recSize m)) (ht : t < 2 ^ 64) :
    Chain (LogArea.stage mem head t l.1 m) (recs ++ [l] ++ [(t, m)]) := by
  have hlen := toBytes_length
  have hsize : recSize m = m.text.length + 1 + 24 := rfl
  have hnext : nextField = 8 := rfl
  have hstr : strField = 16 := rfl
  have hbytes : (m.text ++ [0]).length = m.text.length + 1 := length_append
  -- the writes inside the new message
  have hsub : ∀ q n, t ≤ q → q + n ≤ t + recSize m → ∀ r ∈ recs ++ [l], Apart r q n := by
    intro q n hq hn r hr
    have hr' := hnew r hr
    unfold Apart at hr' ⊢
    omega
  have hl := hnew l (mem_append_right _ mem_cons_self)
  have hlsize : recSize l.2 = l.2.text.length + 1 + 24 := rfl
  unfold Apart at hl
  have h1 : Chain (storeNat mem t 2 m.prio.toNat) (recs ++ [l]) :=
    h.store (by rw [hlen]; exact hsub t 2 (Nat.le_refl t) (by omega))
  have h2 : Chain (ByteMemory.store (storeNat mem t 2 m.prio.toNat) (t + strField) (m.text ++ [0]))
      (recs ++ [l]) :=
    h1.store (by rw [hbytes]; exact hsub _ _ (by omega) (by omega))
  have h3 := h2.store_link hlast t
  have h4 : Chain (LogArea.stage mem head t l.1 m) (recs ++ [l]) :=
    h3.store (by rw [hlen]; exact hsub _ _ (by omega) (by omega))
  refine h4.snoc ?_ (stage_at mem (by omega))
  unfold LogArea.stage
  have hlink := loadNat_storeNat_same
    (ByteMemory.store (storeNat mem t 2 m.prio.toNat) (t + strField) (m.text ++ [0]))
    (l.1 + nextField) (k := 8) (n := t) (by omega)
  have hdisj : Apart l (t + nextField) (toBytes 8 head).length := by
    rw [hlen]
    exact hsub _ _ (by omega) (by omega) l (mem_append_right _ mem_cons_self)
  exact (next_store_apart hdisj).trans hlink

/-! ## The layout of the area -/

/-- Messages one behind the other between two offsets. -/
def Seg : Nat → List (Nat × Msg) → Nat → Prop
  | a, [], b => a ≤ b
  | a, (p, m) :: recs, b => a ≤ p ∧ Seg (p + recSize m) recs b

theorem Seg.mono {a' b' : Nat} (h : Seg a recs b) (ha : a' ≤ a) (hb : b ≤ b') : Seg a' recs b' := by
  induction recs generalizing a a' with
  | nil => exact Nat.le_trans ha (Nat.le_trans h hb)
  | cons r recs ih => exact ⟨Nat.le_trans ha h.1, ih h.2 (Nat.le_refl _)⟩

theorem Seg.le (h : Seg a recs b) : a ≤ b := by
  induction recs generalizing a with
  | nil => exact h
  | cons r recs ih =>
    have hrest := ih h.2
    have hfirst := h.1
    omega

theorem Seg.mem (h : Seg a recs b) :
    ∀ r ∈ recs, a ≤ r.1 ∧ r.1 + recSize r.2 ≤ b := by
  induction recs generalizing a with
  | nil => exact forall_mem_nil _
  | cons r recs ih =>
    intro s hs
    have hfirst := h.1
    cases mem_cons.mp hs with
    | inl heq =>
      rw [heq]
      exact ⟨h.1, h.2.le⟩
    | inr hmem =>
      have hrest := ih h.2 s hmem
      exact ⟨by omega, hrest.2⟩

theorem Seg.snoc {b' : Nat} {l : Nat × Msg} (h : Seg a (recs ++ [l]) b) (ht : l.1 + recSize l.2 ≤ t)
    (hb : t + recSize m ≤ b') :
    Seg a (recs ++ [l] ++ [(t, m)]) b' := by
  induction recs generalizing a with
  | nil => exact ⟨h.1, ht, hb⟩
  | cons r recs ih => exact ⟨h.1, ih h.2⟩

/-- A segment reaches to the end of its last message. -/
theorem Seg.to_last {l : Nat × Msg} (h : Seg a (recs ++ [l]) b) :
    Seg a (recs ++ [l]) (l.1 + recSize l.2) := by
  induction recs generalizing a with
  | nil => exact ⟨h.1, Nat.le_refl _⟩
  | cons r recs ih => exact ⟨h.1, ih h.2⟩

/-- An area without messages. -/
structure Vacant (size : Nat) (la : Log) : Prop where
  empty : la.empty = true
  here : la.head = la.tail
  inside : la.head ≤ size

/-- An area with messages: those from the head up to the end, then those from the start
up to the head, with `l` the last one. -/
structure Holds (size : Nat) (la : Log) (hi lo recs : List (Nat × Msg)) (l : Nat × Msg) : Prop where
  empty : la.empty = false
  split : hi ++ lo = recs ++ [l]
  high : Seg la.head hi size
  low : Seg 0 lo la.head
  first : hi.head?.map Prod.fst = some la.head
  last : l.1 = la.tail
  chain : Chain la.mem (recs ++ [l])
  formed : ∀ r ∈ recs ++ [l], Formed r.2

/-- The area holds these messages, in this order. -/
def Contents (size : Nat) (la : Log) (msgs : List Msg) : Prop :=
  (Vacant size la ∧ msgs = []) ∨
    ∃ hi lo recs l, Holds size la hi lo recs l ∧ msgs = (recs ++ [l]).map Prod.snd

variable {l : Nat × Msg}

theorem Seg.pairwise (h : Seg a recs b) :
    recs.Pairwise (fun r s => Apart s r.1 (recSize r.2)) := by
  induction recs generalizing a with
  | nil => exact List.Pairwise.nil
  | cons r recs ih =>
    exact List.Pairwise.cons (fun s hs => Or.inr (h.2.mem s hs).1) (ih h.2)

/-- No message lies in another one. -/
theorem Holds.pairwise (h : Holds size la hi lo recs l) :
    (recs ++ [l]).Pairwise (fun r s => Apart s r.1 (recSize r.2)) := by
  rw [← h.split, pairwise_append]
  refine ⟨h.high.pairwise, h.low.pairwise, fun r hr s hs => Or.inl ?_⟩
  exact Nat.le_trans (h.low.mem s hs).2 (h.high.mem r hr).1

theorem Holds.inside (h : Holds size la hi lo recs l) : ∀ r ∈ recs ++ [l], r.1 + recSize r.2 ≤ size := by
  intro r hr
  rw [← h.split] at hr
  cases mem_append.mp hr with
  | inl hmem => exact (h.high.mem r hmem).2
  | inr hmem => exact Nat.le_trans (h.low.mem r hmem).2 h.high.le

/-- The link of the last message is in no other message. -/
theorem Holds.apart_link (h : Holds size la hi lo recs l) :
    ∀ r ∈ recs, Apart r (l.1 + nextField) 8 := by
  intro r hr
  have happart := (pairwise_append.mp h.pairwise).2.2 r hr l mem_cons_self
  have hlsize : recSize l.2 = l.2.text.length + 1 + 24 := rfl
  have hnext : nextField = 8 := rfl
  unfold Apart at happart ⊢
  omega

theorem Holds.head_eq {rest : List (Nat × Msg)} (h : Holds size la hi lo recs l)
    (hr : recs ++ [l] = r :: rest) : la.head = r.1 := by
  have hfirst := h.first
  have hsplit := h.split.trans hr
  cases hi with
  | nil => cases hfirst
  | cons r' hi =>
    obtain rfl := (List.cons.inj hsplit).1
    exact (Option.some.inj hfirst).symm

theorem Holds.strAt_tail (h : Holds size la hi lo recs l) (hsize : maxMsgSize ≤ size) :
    strAt size la.mem la.tail = l.2.text := by
  rw [← h.last]
  exact h.chain.last.strAt_eq (h.formed l (mem_append_right _ mem_cons_self)) hsize

theorem Holds.tail_end (h : Holds size la hi lo recs l) :
    la.tail + (sizeofLogmsg + l.2.text.length + 1) = l.1 + recSize l.2 := by
  rw [← h.last]
  unfold recSize
  omega

def Inside (size : Nat) (writes : List Write) : Prop := ∀ w ∈ writes, w.1 + w.2 ≤ size

theorem stageWrites_inside {l : Nat} (ht : t + recSize m ≤ size) (hl : l + 16 ≤ size) :
    Inside size (stageWrites t l m) := by
  have hsize : recSize m = m.text.length + 1 + 24 := rfl
  have hnext : nextField = 8 := rfl
  have hstr : strField = 16 := rfl
  unfold Inside stageWrites
  simp only [forall_mem_cons]
  refine ⟨by omega, by omega, by omega, by omega, forall_mem_nil _⟩

/-- Where a message is put behind one that ends at `t`. -/
def behind (size head t need : Nat) : Nat := if head ≤ t ∧ size < t + need then 0 else t

/-- An enqueue behind a last message. -/
theorem logEnqueue_behind (h : Holds size la hi lo recs l) (hsize : maxMsgSize ≤ size) (m : Msg) :
    logEnqueue size m la =
      if behind size la.head (l.1 + recSize l.2) (recSize m) < la.head ∧
          la.head < behind size la.head (l.1 + recSize l.2) (recSize m) + recSize m then
        (la, true, [])
      else
        (⟨stage la.mem la.head (behind size la.head (l.1 + recSize l.2) (recSize m)) l.1 m, la.head,
            behind size la.head (l.1 + recSize l.2) (recSize m), false⟩, false,
          stageWrites (behind size la.head (l.1 + recSize l.2) (recSize m)) l.1 m) := by
  have hstr := h.strAt_tail hsize
  have htail := h.tail_end
  have hempty := h.empty
  have hlast := h.last
  obtain ⟨mem, head, tail, empty⟩ := la
  dsimp only at hempty hlast hstr htail ⊢
  subst hempty hlast
  unfold logEnqueue behind
  dsimp only
  rw [hstr, if_neg Bool.false_ne_true, htail]
  simp only [Bool.and_false, Bool.false_eq_true, if_false, decide_eq_true_eq]
  rfl

/-- The outcome of an enqueue that keeps to the rules: dropped, or one message more. -/
def Enqueued (size : Nat) (la : Log) (msgs : List Msg) (m : Msg) : Prop :=
  logEnqueue size m la = (la, true, []) ∨
    ∃ la' writes, logEnqueue size m la = (la', false, writes) ∧
      Contents size la' (msgs ++ [m]) ∧ Inside size writes

/-- Put behind a last message, apart from all others, a message extends the contents. -/
theorem Holds.place (h : Holds size la hi lo recs l) (hint : size < 2 ^ 31) (hm : Formed m)
    (hi' lo' : List (Nat × Msg)) (hsplit : hi' ++ lo' = recs ++ [l] ++ [(t, m)])
    (hhigh : Seg la.head hi' size) (hlow : Seg 0 lo' la.head)
    (hfirst : hi'.head?.map Prod.fst = some la.head)
    (hnew : ∀ r ∈ recs ++ [l], Apart r t (recSize m)) (ht : t + recSize m ≤ size) :
    Contents size ⟨stage la.mem la.head t l.1 m, la.head, t, false⟩
      ((recs ++ [l]).map Prod.snd ++ [m]) := by
  refine Or.inr ⟨hi', lo', recs ++ [l], (t, m), ⟨rfl, hsplit, hhigh, hlow, hfirst, rfl, ?_, ?_⟩, ?_⟩
  · exact h.chain.stage h.apart_link hnew (by omega)
  · intro r hr
    cases mem_append.mp hr with
    | inl hold => exact h.formed r hold
    | inr heq => exact mem_singleton.mp heq ▸ hm
  · simp only [map_append, map_cons, map_nil]

/-- An enqueue while all messages are in one piece. -/
theorem Holds.enqueue_linear (h : Holds size la (recs ++ [l]) [] recs l) (hsize : maxMsgSize ≤ size)
    (hint : size < 2 ^ 31) (hm : Formed m)
    (hroom : size < l.1 + recSize l.2 + recSize m → 0 < la.head) :
    Enqueued size la ((recs ++ [l]).map Prod.snd) m := by
  have hl := h.high.mem l (mem_append_right _ mem_cons_self)
  have hlsize : recSize l.2 = l.2.text.length + 1 + 24 := rfl
  have henq := logEnqueue_behind h hsize m
  by_cases hrewind : size < l.1 + recSize l.2 + recSize m
  · -- back to the start
    have hzero : behind size la.head (l.1 + recSize l.2) (recSize m) = 0 := if_pos ⟨by omega, hrewind⟩
    have hpos := hroom hrewind
    rw [hzero, Nat.zero_add] at henq
    by_cases hdrop : la.head < recSize m
    · rw [if_pos ⟨hpos, hdrop⟩] at henq
      exact Or.inl henq
    · rw [if_neg (fun hd => hdrop hd.2)] at henq
      refine Or.inr ⟨_, _, henq, ?_, stageWrites_inside (by omega) (by omega)⟩
      refine h.place hint hm (recs ++ [l]) [(0, m)] rfl h.high ?_ h.first ?_
        (by omega)
      · refine ⟨Nat.le_refl 0, ?_⟩
        change 0 + recSize m ≤ la.head
        omega
      · intro r hr
        have hrange := h.high.mem r hr
        exact Or.inr (by omega)
  · -- behind the last message
    have ht : behind size la.head (l.1 + recSize l.2) (recSize m) = l.1 + recSize l.2 :=
      if_neg (fun hb => hrewind hb.2)
    rw [ht, if_neg (fun hd => by omega)] at henq
    refine Or.inr ⟨_, _, henq, ?_, stageWrites_inside (by omega) (by omega)⟩
    refine h.place hint hm (recs ++ [l] ++ [(l.1 + recSize l.2, m)]) []
      (append_nil _) ?_ h.low ?_ (fun r hr => .inl (h.high.to_last.mem r hr).2) (by omega)
    · exact h.high.snoc (Nat.le_refl _) (by omega)
    · rw [head?_append_of_ne_nil _ (by simp)]
      exact h.first

/-- An enqueue while the last messages are before the first one. -/
theorem Holds.enqueue_wrapped {los : List (Nat × Msg)}
    (h : Holds size la hi (los ++ [l]) (hi ++ los) l) (hsize : maxMsgSize ≤ size)
    (hint : size < 2 ^ 31) (hm : Formed m)
    (hroom : l.1 + recSize l.2 = la.head → size < la.head + recSize m ∧ la.head < recSize m) :
    Enqueued size la ((hi ++ los ++ [l]).map Prod.snd) m := by
  have hl := h.low.mem l (mem_append_right _ mem_cons_self)
  have hlsize : recSize l.2 = l.2.text.length + 1 + 24 := rfl
  have henq := logEnqueue_behind h hsize m
  by_cases hfull : l.1 + recSize l.2 = la.head
  · -- filled exactly: the tail goes back to the start and the message is dropped
    obtain ⟨hend, hstart⟩ := hroom hfull
    have hzero : behind size la.head (l.1 + recSize l.2) (recSize m) = 0 :=
      if_pos ⟨by omega, by omega⟩
    rw [hzero, Nat.zero_add, if_pos ⟨by omega, hstart⟩] at henq
    exact Or.inl henq
  · have ht : behind size la.head (l.1 + recSize l.2) (recSize m) = l.1 + recSize l.2 :=
      if_neg (fun hb => by omega)
    rw [ht] at henq
    by_cases hdrop : la.head < l.1 + recSize l.2 + recSize m
    · rw [if_pos ⟨by omega, hdrop⟩] at henq
      exact Or.inl henq
    · rw [if_neg (fun hd => hdrop hd.2)] at henq
      have hhead : la.head ≤ size := h.high.le
      refine Or.inr ⟨_, _, henq, ?_, stageWrites_inside (by omega) (by omega)⟩
      refine h.place hint hm hi (los ++ [l] ++ [(l.1 + recSize l.2, m)]) ?_ h.high ?_ h.first ?_
        (by omega)
      · simp only [append_assoc]
      · exact h.low.snoc (Nat.le_refl _) (by omega)
      · intro r hr
        rw [append_assoc] at hr
        cases mem_append.mp hr with
        | inl hmem =>
          have hrange := h.high.mem r hmem
          exact Or.inr (by omega)
        | inr hmem => exact Or.inl (h.low.to_last.mem r hmem).2

/-- An enqueue into an empty area that is large enough. -/
theorem Vacant.enqueue (h : Vacant size la) (hm : Formed m) (hroom : recSize m ≤ size) :
    Enqueued size la [] m := by
  obtain ⟨mem, head, tail, empty⟩ := la
  obtain ⟨hempty, hhere, hinside⟩ := h
  dsimp only at hempty hhere hinside
  subst hempty hhere
  have hneed : m.text.length + 1 + sizeofLogmsg = recSize m := rfl
  have hat : ∀ p, p + recSize m ≤ size →
      Contents size ⟨stage mem p p p m, p, p, false⟩ [m] := by
    intro p hp
    refine Or.inr ⟨[(p, m)], [], [], (p, m), ⟨rfl, rfl, ⟨Nat.le_refl p, hp⟩, Nat.zero_le p, rfl, rfl,
      stage_at mem (Or.inl rfl), ?_⟩, rfl⟩
    intro r hr
    rw [nil_append, mem_singleton] at hr
    exact hr ▸ hm
  have hwrites : ∀ p, p + recSize m ≤ size → Inside size (stageWrites p p m) := by
    intro p hp
    have hrec : recSize m = m.text.length + 1 + 24 := rfl
    exact stageWrites_inside hp (by omega)
  right
  by_cases hrewind : size < head + recSize m
  · refine ⟨⟨stage mem 0 0 0 m, 0, 0, false⟩, stageWrites 0 0 m, ?_, hat 0 (by omega),
      hwrites 0 (by omega)⟩
    unfold logEnqueue
    simp [hneed, hrewind]
  · refine ⟨⟨stage mem head head head m, head, head, false⟩, stageWrites head head m, ?_,
      hat head (by omega), hwrites head (by omega)⟩
    unfold logEnqueue
    simp [hneed, hrewind]

/-- An enqueue that finds room, or sees that there is none, keeps to the rules. -/
theorem Contents.enqueue (h : Contents size la msgs) (hsize : maxMsgSize ≤ size)
    (hint : size < 2 ^ 31) (hm : Formed m) (hroom : Roomy size m.text la) :
    Enqueued size la msgs m := by
  unfold Roomy at hroom
  have hneed : m.text.length + 1 + sizeofLogmsg = recSize m := rfl
  cases h with
  | inl hvacant =>
    obtain ⟨hv, rfl⟩ := hvacant
    rw [if_pos hv.empty] at hroom
    exact hv.enqueue hm hroom
  | inr hholds =>
    obtain ⟨hi, lo, recs, l, h, rfl⟩ := hholds
    rw [if_neg (by rw [h.empty]; exact Bool.false_ne_true), h.strAt_tail hsize, h.tail_end,
      hneed] at hroom
    cases eq_nil_or_concat lo with
    | inl hnil =>
      subst hnil
      have hsplit := h.split
      rw [append_nil] at hsplit
      subst hsplit
      have hl := h.high.mem l (mem_append_right _ mem_cons_self)
      exact h.enqueue_linear hsize hint hm (hroom.1 (by rw [← h.last]; exact hl.1))
    | inr hconcat =>
      obtain ⟨los, l', hlo⟩ := hconcat
      rw [concat_eq_append] at hlo
      subst hlo
      have hsplit := h.split
      rw [← append_assoc] at hsplit
      obtain ⟨hrecs, hl'⟩ := append_inj' hsplit rfl
      obtain rfl := List.cons.inj hl' |>.1
      subst hrecs
      have hl := h.low.mem l' (mem_append_right _ mem_cons_self)
      have hlsize : recSize l'.2 = l'.2.text.length + 1 + 24 := rfl
      exact h.enqueue_wrapped hsize hint hm (hroom.2 (by rw [← h.last]; omega))

/-! ## Dequeueing -/

/-- The outcome of a dequeue that keeps to the rules: the first message, if there is one. -/
def Dequeued (size : Nat) (la : Log) (msgs : List Msg) : Prop :=
  ∃ la' writes, logDequeue size la = (la', msgs.head?, writes) ∧ Contents size la' msgs.tail ∧
    Inside size writes

/-- The first message is read as it was written. -/
theorem At.read {mem : Mem} (h : At mem p m) (hm : Formed m) (hsize : maxMsgSize ≤ size) :
    (⟨UInt16.ofNat (loadNat mem p 2), strAt size mem p⟩ : Msg) = m := by
  rw [h.prio, h.strAt_eq hm hsize, UInt16.ofNat_toNat]

/-- Taking the only message. -/
theorem Holds.dequeue_last (h : Holds size la hi lo [] l) (hsize : maxMsgSize ≤ size) : Dequeued size la [l.2] := by
  have hform := h.formed l mem_cons_self
  have hhead : la.head = l.1 := h.head_eq rfl
  have hin := h.inside l mem_cons_self
  have hread := h.chain.last.read hform hsize
  have hstr := h.chain.last.strAt_eq hform hsize
  have hlen : l.2.text.length + sizeofLogmsg + 1 = recSize l.2 := by
    unfold recSize
    omega
  refine ⟨{ la with empty := true, mem := store la.mem l.1 (List.replicate (recSize l.2) 0) },
    [(l.1, recSize l.2)], ?_, Or.inl ⟨⟨rfl, ?_, ?_⟩, rfl⟩, ?_⟩
  · unfold logDequeue
    rw [if_neg (by rw [h.empty]; exact Bool.false_ne_true)]
    dsimp only
    rw [hhead, ← h.last, if_pos rfl, hread, hstr, hlen]
    rfl
  · exact hhead.trans h.last
  · change la.head ≤ size
    omega
  · intro w hw
    rw [mem_singleton.mp hw]
    exact hin

/-- The layout without its first message. -/
theorem Holds.drop_first {s : Nat × Msg} {more : List (Nat × Msg)}
    (h : Holds size la hi lo (r :: recs) l) (hs : recs ++ [l] = s :: more) :
    ∃ hi' lo', hi' ++ lo' = recs ++ [l] ∧ Seg s.1 hi' size ∧ Seg 0 lo' s.1 ∧
      hi'.head?.map Prod.fst = some s.1 := by
  have hsplit := h.split
  have hhigh := h.high
  have hlow := h.low
  have hfirst := h.first
  cases hi with
  | nil => cases hfirst
  | cons r' hi =>
    rw [cons_append, cons_append] at hsplit
    obtain ⟨hr, hrest⟩ := List.cons.inj hsplit
    rw [hs] at hrest ⊢
    cases hi with
    | nil =>
      -- the last message before the end is gone
      rw [nil_append] at hrest
      rw [hrest] at hlow
      exact ⟨s :: more, [], append_nil _, ⟨Nat.le_refl _, hlow.2.mono (Nat.le_refl _) hhigh.le⟩,
        Nat.zero_le _, rfl⟩
    | cons s' hi =>
      rw [cons_append] at hrest
      obtain ⟨hs', _⟩ := List.cons.inj hrest
      subst hs'
      have hle : la.head ≤ s'.1 := by
        have h1 := hhigh.1
        have h2 := hhigh.2.1
        omega
      exact ⟨s' :: hi, lo, hrest, ⟨Nat.le_refl _, hhigh.2.2⟩, hlow.mono (Nat.le_refl _) hle, rfl⟩

/-- Taking the first of several messages. -/
theorem Holds.dequeue_first (h : Holds size la hi lo (r :: recs) l) (hsize : maxMsgSize ≤ size) :
    Dequeued size la ((r :: recs ++ [l]).map Prod.snd) := by
  have hhead : la.head = r.1 := h.head_eq rfl
  have hform := h.formed r mem_cons_self
  have hread := h.chain.head.read hform hsize
  have hstr := h.chain.head.strAt_eq hform hsize
  have hlen : r.2.text.length + sizeofLogmsg + 1 = recSize r.2 := by
    unfold recSize
    omega
  have hafter := (pairwise_cons.mp h.pairwise).1
  have hbefore := fun t ht => h.apart_link t (mem_cons_of_mem r ht)
  have hne : l.1 ≠ r.1 := by
    have hlt := hafter l (mem_append_right _ mem_cons_self)
    have hrsize : recSize r.2 = r.2.text.length + 1 + 24 := rfl
    have hlsize : recSize l.2 = l.2.text.length + 1 + 24 := rfl
    unfold Apart at hlt
    omega
  obtain ⟨s, more, hs⟩ : ∃ s more, recs ++ [l] = s :: more := by
    cases recs with
    | nil => exact ⟨l, [], rfl⟩
    | cons s recs => exact ⟨s, recs ++ [l], rfl⟩
  have hnext : loadNat la.mem (r.1 + nextField) 8 = s.1 := by
    have hchain := h.chain
    rw [cons_append, hs] at hchain
    exact hchain.2.1
  obtain ⟨hi', lo', hsplit, hhigh, hlow, hfirst⟩ := h.drop_first hs
  refine ⟨⟨store (storeNat la.mem (l.1 + nextField) 8 s.1) r.1 (List.replicate (recSize r.2) 0), s.1,
    la.tail, false⟩, [(l.1 + nextField, 8), (r.1, recSize r.2)], ?_, Or.inr ⟨hi', lo', recs, l,
    ⟨rfl, hsplit, hhigh, hlow, hfirst, h.last, ?_, ?_⟩, rfl⟩, ?_⟩
  · unfold logDequeue
    rw [if_neg (by rw [h.empty]; exact Bool.false_ne_true)]
    dsimp only
    rw [hhead, ← h.last, if_neg hne, hread, hstr, hlen, hnext]
    rfl
  · have hlinked := h.chain.tail.store_link hbefore s.1
    exact hlinked.store (fun t ht => by rw [length_replicate]; exact hafter t ht)
  · exact fun t ht => h.formed t (mem_cons_of_mem r ht)
  · have hlin := h.inside l (mem_append_right _ mem_cons_self)
    have hrin := h.inside r mem_cons_self
    have hlsize : recSize l.2 = l.2.text.length + 1 + 24 := rfl
    have hnext : nextField = 8 := rfl
    unfold Inside
    simp only [forall_mem_cons]
    exact ⟨by omega, hrin, forall_mem_nil _⟩

theorem Contents.dequeue (h : Contents size la msgs)
    (hsize : maxMsgSize ≤ size) : Dequeued size la msgs := by
  cases h with
  | inl hvacant =>
    obtain ⟨hv, rfl⟩ := hvacant
    refine ⟨la, [], ?_, Or.inl ⟨hv, rfl⟩, forall_mem_nil _⟩
    unfold logDequeue
    rw [if_pos hv.empty]
    rfl
  | inr hholds =>
    obtain ⟨hi, lo, recs, l, h, rfl⟩ := hholds
    cases recs with
    | nil => exact h.dequeue_last hsize
    | cons r recs => exact h.dequeue_first hsize

/-! ## Whole runs -/

/-- The messages dequeued come first among those accepted, a dequeue finds nothing only
when it has all been dequeued, all writes are inside the area, and a message that is
dropped leaves the area as it was. -/
def Lossless (size : Nat) (r : Run) : Prop :=
  r.returned <+: r.accepted ∧ ((logDequeue size r.la).2.1 = none ↔ r.returned = r.accepted) ∧
    Inside size r.writes ∧
    ∀ m, (logEnqueue size m r.la).2.1 = true → (logEnqueue size m r.la).1 = r.la

/-- The area holds the messages that were accepted and not dequeued yet. -/
structure Fifo (size : Nat) (r : Run) (msgs : List Msg) : Prop where
  contents : Contents size r.la msgs
  accepted : r.accepted = r.returned ++ msgs
  inside : Inside size r.writes

/-- A dropped message leaves the area as it was. -/
theorem Contents.dropped (h : Contents size la msgs)
    (hsize : maxMsgSize ≤ size) (m : Msg) (hdrop : (logEnqueue size m la).2.1 = true) :
    (logEnqueue size m la).1 = la := by
  cases h with
  | inl hvacant =>
    obtain ⟨⟨hempty, hhere, _⟩, _⟩ := hvacant
    obtain ⟨mem, head, tail, empty⟩ := la
    dsimp only at hempty hhere
    subst hempty hhere
    unfold logEnqueue at hdrop
    by_cases hrewind : size < head + (m.text.length + 1 + sizeofLogmsg)
    · simp [hrewind] at hdrop
    · simp [hrewind] at hdrop
  | inr hholds =>
    obtain ⟨hi, lo, recs, l, h, rfl⟩ := hholds
    rw [logEnqueue_behind h hsize] at hdrop ⊢
    split at hdrop
    · rename_i hcond
      rw [if_pos hcond]
    · cases hdrop

theorem Fifo.lossless {r : Run} (h : Fifo size r msgs) (hsize : maxMsgSize ≤ size) :
    Lossless size r := by
  refine ⟨⟨msgs, h.accepted.symm⟩, ?_, h.inside, h.contents.dropped hsize⟩
  obtain ⟨la', writes, hdeq, _, _⟩ := h.contents.dequeue hsize
  rw [hdeq, h.accepted, head?_eq_none_iff]
  constructor
  · intro hnil
    rw [hnil, append_nil]
  · intro heq
    exact self_eq_append_right.mp heq

theorem Inside.append {ws ws' : List Write} (h : Inside size ws)
    (h' : Inside size ws') : Inside size (ws ++ ws') :=
  forall_mem_append.mpr ⟨h, h'⟩

theorem Fifo.enqueue {r : Run} (h : Fifo size r msgs) (hsize : maxMsgSize ≤ size)
    (hint : size < 2 ^ 31) (prio : UInt16) (text : List UInt8)
    (hroom : Roomy size (format text) r.la) :
    ∃ msgs', Fifo size (step size r (.enqueue prio text)) msgs' := by
  cases h.contents.enqueue hsize hint (format_formed prio text) hroom with
  | inl hdrop =>
    refine ⟨msgs, ?_⟩
    unfold step
    dsimp only
    rw [hdrop]
    exact ⟨h.contents, h.accepted, h.inside.append (forall_mem_nil _)⟩
  | inr hput =>
    obtain ⟨la', writes, henq, hcontents, hwrites⟩ := hput
    refine ⟨msgs ++ [⟨prio, format text⟩], ?_⟩
    unfold step
    dsimp only
    rw [henq]
    refine ⟨hcontents, ?_, h.inside.append hwrites⟩
    change r.accepted ++ [_] = r.returned ++ (msgs ++ [_])
    rw [h.accepted, append_assoc]

theorem Fifo.dequeue {r : Run} (h : Fifo size r msgs) (hsize : maxMsgSize ≤ size) :
    Fifo size (step size r .dequeue) msgs.tail := by
  obtain ⟨la', writes, hdeq, hcontents, hwrites⟩ := h.contents.dequeue hsize
  unfold step
  dsimp only
  rw [hdeq]
  refine ⟨hcontents, ?_, h.inside.append hwrites⟩
  change r.accepted = r.returned ++ msgs.head?.toList ++ msgs.tail
  rw [h.accepted, append_assoc]
  cases msgs <;> rfl

theorem start_fifo (size : Nat) : Fifo size start [] :=
  ⟨Or.inl ⟨⟨rfl, rfl, Nat.zero_le size⟩, rfl⟩, rfl, forall_mem_nil _⟩

theorem RoomyRun.fifo (hsize : maxMsgSize ≤ size) (hint : size < 2 ^ 31) {ops : List Op} {r : Run}
    (hroom : RoomyRun size ops r) (h : Fifo size r msgs) (n : Nat) :
    ∃ msgs', Fifo size (run size (ops.take n) r) msgs' := by
  induction ops generalizing r msgs n with
  | nil =>
    rw [take_nil]
    exact ⟨msgs, h⟩
  | cons op ops ih =>
    cases n with
    | zero => exact ⟨msgs, h⟩
    | succ n =>
      cases op with
      | enqueue prio text =>
        obtain ⟨msgs', h'⟩ := h.enqueue hsize hint prio text hroom.1
        exact ih hroom.2 h' n
      | dequeue => exact ih hroom (h.dequeue hsize) n

/-- In every state of a run in which each enqueue finds room, or sees that there is none,
the area is a lossless queue. -/
theorem log_area_lossless (size : Nat) (hsize : maxMsgSize ≤ size) (hint : size < 2 ^ 31)
    (ops : List Op) (hroom : RoomyRun size ops start) (n : Nat) :
    Lossless size (run size (ops.take n) start) := by
  obtain ⟨msgs, h⟩ := hroom.fifo hsize hint (start_fifo size) n
  exact h.lossless hsize

/-- One message in and out of the smallest area. -/
theorem one_message_lossless :
    Lossless 256 (run 256 [.enqueue 3 [97], .dequeue] start) := by
  have hroom : RoomyRun 256 [.enqueue 3 [97], .dequeue] start := by
    refine ⟨?_, trivial⟩
    change (1 : Nat) + 1 + 24 ≤ 256
    decide
  exact log_area_lossless 256 (Nat.le_refl _) (by decide) _ hroom 2

/-- Two messages that do not fit together, from the start of the smallest area. -/
def twoMessages : List Op :=
  [.enqueue 3 (List.replicate 175 97), .enqueue 3 (List.replicate 75 98), .dequeue]

/-- The second one is written over the first one, which is lost. -/
theorem second_message_overwrites :
    (run 256 twoMessages start).accepted =
        [⟨3, List.replicate 175 97⟩, ⟨3, List.replicate 75 98⟩] ∧
      (run 256 twoMessages start).returned = [⟨3, List.replicate 75 98⟩] ∧
      ¬ (run 256 twoMessages start).returned <+: (run 256 twoMessages start).accepted := by
  have haccepted : (run 256 twoMessages start).accepted =
      [⟨3, List.replicate 175 97⟩, ⟨3, List.replicate 75 98⟩] := by
    decide +kernel
  have hreturned : (run 256 twoMessages start).returned = [⟨3, List.replicate 75 98⟩] := by
    decide +kernel
  refine ⟨haccepted, hreturned, ?_⟩
  rw [haccepted, hreturned]
  decide +kernel

end LogArea
