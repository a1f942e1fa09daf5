import OpenIscsi.Lib.ByteMemory
import OpenIscsi.Lib.Runs

/-!
# The receive ring of qedi

`qedi_read` of `libs/qedi.c` takes frames from the descriptor ring that the driver fills. The
driver stores the descriptor of its k-th frame in slot k mod `QEDI_NUM_RX_BD` and sets
`hw_rx_bd_prod` to it. The statistics and `hw_rx_prod`, which is only logged, are left out.
-/

namespace QediRing

open ByteMemory Runs List

def rxRingSize : Nat := 15
def pktBufSize : Nat := 0x400
def qediPageSize : Nat := 4096
def sizeofRxBd : Nat := 12
def qediRxDescCnt : Nat := qediPageSize / sizeofRxBd
def qediNumRxBd : Nat := qediRxDescCnt * 1
def stdMtuSize : Nat := 1500

/-- The conversion of a `__u32` to `int`. -/
def toInt32 (n : Nat) : Int :=
  if n % 2 ^ 32 < 2 ^ 31 then (n % 2 ^ 32 : Nat) else (n % 2 ^ 32 : Nat) - 2 ^ 32

structure RxBd where
  rxPktIndex : Nat
  rxPktLen : Nat
  vlanId : Nat

/-- The fields of `struct qedi_uio_ctrl` that `qedi_read` uses. -/
structure UioCtrl where
  hwRxBdProd : Nat
  hostRxCons : Nat
  hostRxBdCons : Nat
  hostRxConsCnt : Nat

/-- What the device maps: the control page, the descriptors and the buffers. -/
structure Qedi where
  uctrl : UioCtrl
  rxCompRing : Nat → RxBd
  rxPkts : Mem

/-- `packet_t`, with the bytes that were copied to its buffer. -/
structure Packet where
  buf : List UInt8
  bufSize : Int
  maxBufSize : Nat
  vlanTag : Nat
  vlanTagged : Bool

def allocPacket : Packet := ⟨[], 0, stdMtuSize, 0, false⟩

/-- What a call of `qedi_read` returns, copies and leaves behind. -/
structure Read where
  rc : Int
  copied : Nat
  bp : Qedi
  pkt : Packet

/-- Where the buffer with this number starts in `rx_pkts`. -/
def rxPktAt (rxPktIdx : Nat) : Nat := (pktBufSize * rxPktIdx) % 2 ^ 32

def qediRead (bp : Qedi) (pkt : Packet) : Read :=
  let bdProd := bp.uctrl.hwRxBdProd
  let swCons := bp.uctrl.hostRxCons
  let bdCons := bp.uctrl.hostRxBdCons
  let rxBd := bp.rxCompRing bdProd
  let len := toInt32 rxBd.rxPktLen
  if bdCons ≠ bdProd then
    let uctrl :=
      { bp.uctrl with
        hostRxCons := (swCons + 1) % 2 ^ 32 % rxRingSize
        hostRxBdCons := (bdCons + 1) % 2 ^ 32 % qediNumRxBd
        hostRxConsCnt := (bp.uctrl.hostRxConsCnt + 1) % 2 ^ 32 }
    if 0 < len then
      let pkt :=
        { pkt with
          buf := load bp.rxPkts (rxPktAt rxBd.rxPktIndex) len.toNat
          bufSize := len
          vlanTag := rxBd.vlanId
          vlanTagged := pkt.vlanTagged || rxBd.vlanId ≠ 0 }
      ⟨1, len.toNat, { bp with uctrl }, pkt⟩
    else ⟨0, 0, { bp with uctrl }, pkt⟩
  else ⟨0, 0, bp, pkt⟩

/-! ## Runs of the driver and the reader -/

structure Frame where
  data : List UInt8
  vlanId : Nat
  deriving DecidableEq

/-- The ring with the frames that the driver stored, those that calls returning 1 delivered,
and for each call that returned 0 how many frames were pending. -/
structure State where
  bp : Qedi
  frames : List Frame
  delivered : List Frame
  idle : List Nat

def pending (s : State) : Nat := s.frames.length - s.delivered.length

inductive Event
  | frame (rxPktIndex : Nat) (f : Frame)
  | read

/-- The driver stores a frame in the buffer with this number. -/
def storeFrame (bp : Qedi) (k rxPktIndex : Nat) (f : Frame) : Qedi where
  uctrl := { bp.uctrl with hwRxBdProd := k % qediNumRxBd }
  rxCompRing := Function.update bp.rxCompRing (k % qediNumRxBd)
    ⟨rxPktIndex, f.data.length, f.vlanId⟩
  rxPkts := store bp.rxPkts (rxPktAt rxPktIndex) f.data

def step (s : State) : Event → State
  | .frame rxPktIndex f =>
    { s with
      bp := storeFrame s.bp (s.frames.length + 1) rxPktIndex f
      frames := s.frames ++ [f] }
  | .read =>
    let r := qediRead s.bp allocPacket
    if r.rc = 1 then
      { s with
        bp := r.bp
        delivered := s.delivered ++ [⟨r.pkt.buf, r.pkt.vlanTag⟩] }
    else { s with bp := r.bp, idle := s.idle ++ [pending s] }

def initial : State := ⟨⟨⟨0, 0, 0, 0⟩, fun _ => ⟨0, 0, 0⟩, fun _ => 0⟩, [], [], []⟩

/-- What the driver promises: it runs at most `RX_RING_SIZE - 1` frames ahead, and frames have
from one byte to the size of a packet. -/
def Promised (s : State) : Event → Prop
  | .frame _ f =>
    pending s < rxRingSize - 1 ∧ 1 ≤ f.data.length ∧
      f.data.length ≤ stdMtuSize
  | .read => True

/-- The frames are delivered in order, each once, and 0 is returned only if none is
pending. -/
def Delivers (s : State) : Prop :=
  s.delivered <+: s.frames ∧ ∀ n ∈ s.idle, n = 0

/-- A call finds no frame pending whose contents are not those of the newest one. -/
def NewestNext (s : State) : Event → Prop
  | .frame _ _ => True
  | .read => pending s ≠ 0 → s.frames[s.delivered.length]? = s.frames.getLast?

/-- The descriptor and the buffer of the newest frame. -/
def Holds (bp : Qedi) (f : Frame) : Prop :=
  (bp.rxCompRing bp.uctrl.hwRxBdProd).rxPktLen = f.data.length ∧
    (bp.rxCompRing bp.uctrl.hwRxBdProd).vlanId = f.vlanId ∧
    load bp.rxPkts (rxPktAt (bp.rxCompRing bp.uctrl.hwRxBdProd).rxPktIndex) f.data.length = f.data

/-- The indices count the frames stored and taken, and the newest frame is intact. -/
structure Inv (s : State) : Prop where
  delivered_le : s.delivered.length ≤ s.frames.length
  ahead : pending s ≤ rxRingSize - 1
  prod : s.bp.uctrl.hwRxBdProd = s.frames.length % qediNumRxBd
  cons : s.bp.uctrl.hostRxBdCons = s.delivered.length % qediNumRxBd
  newest : ∀ f, s.frames.getLast? = some f →
    (1 ≤ f.data.length ∧ f.data.length ≤ stdMtuSize) ∧ Holds s.bp f
  idle : ∀ n ∈ s.idle, n = 0

theorem sizes : qediNumRxBd = 341 ∧ rxRingSize = 15 ∧ stdMtuSize = 1500 := by decide

theorem inv_initial : Inv initial where
  delivered_le := Nat.le_refl 0
  ahead := Nat.zero_le _
  prod := rfl
  cons := rfl
  newest := fun f hf => by simp [initial] at hf
  idle := fun n hn => by simp [initial] at hn

/-! ## Steps -/

theorem holds_storeFrame (bp : Qedi) (k rxPktIndex : Nat) (f : Frame) :
    Holds (storeFrame bp k rxPktIndex f) f := by
  unfold Holds storeFrame
  dsimp only
  rw [Function.update_self]
  exact ⟨rfl, rfl, load_store_same _ _ _⟩

theorem inv_frame {s : State} (hs : Inv s) (rxPktIndex : Nat) (f : Frame)
    (hp : Promised s (.frame rxPktIndex f)) : Inv (step s (.frame rxPktIndex f)) where
  delivered_le := by
    have hle := hs.delivered_le
    simp only [step, length_append, length_singleton]
    omega
  ahead := by
    have hroom := hp.1
    simp only [pending, step, length_append, length_singleton] at hroom ⊢
    omega
  prod := by
    simp only [step, storeFrame, length_append, length_singleton]
  cons := hs.cons
  newest := by
    intro g hg
    have hgf : f = g := by simpa [step] using hg
    subst hgf
    exact ⟨hp.2, holds_storeFrame _ _ _ _⟩
  idle := hs.idle

/-- The indices differ exactly if a frame is pending. -/
theorem cons_ne_prod_iff {s : State} (hs : Inv s) :
    s.bp.uctrl.hostRxBdCons ≠ s.bp.uctrl.hwRxBdProd ↔ pending s ≠ 0 := by
  have hle := hs.delivered_le
  have hahead := hs.ahead
  obtain ⟨hnum, hring, -⟩ := sizes
  rw [hs.cons, hs.prod]
  unfold pending at *
  rw [hnum]
  omega

theorem toInt32_of_le {n : Nat} (h : n ≤ stdMtuSize) : toInt32 n = n := by
  obtain ⟨-, -, hmtu⟩ := sizes
  unfold toInt32
  rw [if_pos (by omega)]
  omega

/-- A call without a pending frame. -/
theorem step_read_none {s : State} (hs : Inv s) (h : pending s = 0) :
    step s .read = { s with idle := s.idle ++ [0] } := by
  have hsame : ¬ s.bp.uctrl.hostRxBdCons ≠ s.bp.uctrl.hwRxBdProd := by
    rw [cons_ne_prod_iff hs]
    exact fun hne => hne h
  simp only [step, qediRead, if_neg hsame, h]
  rfl

/-- A call with a pending frame delivers the newest one. -/
theorem step_read_some {s : State} (hs : Inv s) {f : Frame} (hf : s.frames.getLast? = some f)
    (h : pending s ≠ 0) :
    ∃ bp : Qedi,
      step s .read = { s with bp, delivered := s.delivered ++ [f] } ∧
        bp.uctrl.hwRxBdProd = s.bp.uctrl.hwRxBdProd ∧
        bp.uctrl.hostRxBdCons = (s.delivered.length + 1) % qediNumRxBd ∧
        (∀ g, Holds s.bp g → Holds bp g) := by
  obtain ⟨⟨hpos, hmax⟩, hlen, hvlan, hload⟩ := hs.newest f hf
  have hdiffer := (cons_ne_prod_iff hs).mpr h
  have hint := toInt32_of_le hmax
  have hlong : (0 : Int) < toInt32 (s.bp.rxCompRing s.bp.uctrl.hwRxBdProd).rxPktLen := by
    rw [hlen, hint]
    omega
  refine ⟨(qediRead s.bp allocPacket).bp, ?_, ?_, ?_, ?_⟩
  · simp only [step, qediRead, if_pos hdiffer, if_pos hlong]
    rw [hlen, hint, Int.toNat_natCast, hload, hvlan]
    simp
  · simp only [qediRead, if_pos hdiffer, if_pos hlong]
  · simp only [qediRead, if_pos hdiffer, if_pos hlong]
    rw [hs.cons]
    obtain ⟨hnum, -, -⟩ := sizes
    rw [hnum]
    omega
  · intro g hg
    unfold Holds at hg ⊢
    simpa only [qediRead, if_pos hdiffer, if_pos hlong] using hg
theorem getLast?_of_pending {s : State} (h : pending s ≠ 0) :
    ∃ f, s.frames.getLast? = some f := by
  cases hlast : s.frames.getLast? with
  | some f => exact ⟨f, rfl⟩
  | none =>
    rw [getLast?_eq_none_iff] at hlast
    exact absurd (by simp [pending, hlast]) h

theorem inv_read {s : State} (hs : Inv s) : Inv (step s .read) := by
  have hle := hs.delivered_le
  have hahead := hs.ahead
  by_cases h : pending s = 0
  · rw [step_read_none hs h]
    refine ⟨hle, hahead, hs.prod, hs.cons, hs.newest, ?_⟩
    intro n hn
    rcases mem_append.mp hn with hold | hnew
    · exact hs.idle n hold
    · exact mem_singleton.mp hnew
  · obtain ⟨f, hf⟩ := getLast?_of_pending h
    obtain ⟨bp, hstep, hprod, hcons, hholds⟩ := step_read_some hs hf h
    rw [hstep]
    refine ⟨?_, ?_, hprod.trans hs.prod, ?_, ?_, hs.idle⟩
    · simp only [pending, length_append, length_singleton] at h ⊢
      omega
    · simp only [pending, length_append, length_singleton] at hahead ⊢
      omega
    · rw [hcons, length_append, length_singleton]
    · intro g hg
      obtain ⟨hsize, hheld⟩ := hs.newest g hg
      exact ⟨hsize, hholds g hheld⟩

theorem inv_step {s : State} (hs : Inv s) (e : Event) (hp : Promised s e) : Inv (step s e) := by
  cases e with
  | frame rxPktIndex f => exact inv_frame hs rxPktIndex f hp
  | read => exact inv_read hs

/-- One more element keeps a list at the start of another exactly if it stands there next. -/
theorem snoc_isPrefix_iff {α : Type} (xs ys : List α) (y : α) :
    xs ++ [y] <+: ys ↔ xs <+: ys ∧ ys[xs.length]? = some y := by
  constructor
  · rintro ⟨zs, rfl⟩
    refine ⟨⟨y :: zs, by simp⟩, ?_⟩
    simp
  · rintro ⟨⟨zs, rfl⟩, hy⟩
    cases zs with
    | nil => simp at hy
    | cons z zs =>
      have hzy : z = y := by simpa using hy
      subst hzy
      exact ⟨zs, by simp⟩

theorem isPrefix_snoc_iff {α : Type} {xs ys : List α} (y : α) (h : xs.length ≤ ys.length) :
    xs <+: ys ++ [y] ↔ xs <+: ys := by
  rw [prefix_concat_iff]
  constructor
  · rintro (hxs | hxs)
    · rw [hxs, length_append, length_singleton] at h
      omega
    · exact hxs
  · exact Or.inr

/-- What one step does to the order of delivery. -/
theorem step_delivers_iff {s : State} (hs : Inv s) (e : Event) (hp : Promised s e) :
    Delivers (step s e) ↔ Delivers s ∧ NewestNext s e := by
  have hidle := (inv_step hs e hp).idle
  cases e with
  | frame rxPktIndex f =>
    simp only [Delivers, step, NewestNext, and_true, isPrefix_snoc_iff f hs.delivered_le]
  | read =>
    by_cases h : pending s = 0
    · rw [step_read_none hs h] at hidle ⊢
      constructor
      · rintro ⟨horder, -⟩
        exact ⟨⟨horder, hs.idle⟩, fun hpending => absurd h hpending⟩
      · rintro ⟨⟨horder, -⟩, -⟩
        exact ⟨horder, hidle⟩
    · obtain ⟨f, hf⟩ := getLast?_of_pending h
      obtain ⟨bp, hstep, -⟩ := step_read_some hs hf h
      rw [hstep]
      simp only [Delivers, NewestNext, snoc_isPrefix_iff, hf, ne_eq, h, not_false_eq_true,
        true_imp_iff]
      exact and_right_comm

theorem run_delivers_iff {s : State} (hs : Inv s) (es : List Event)
    (hp : Guarded step Promised s es) :
    Delivers (run step s es) ↔ Delivers s ∧ Guarded step NewestNext s es := by
  induction es generalizing s with
  | nil => exact (and_iff_left trivial).symm
  | cons e es ih =>
    rw [run_cons, ih (inv_step hs e hp.1) hp.2, step_delivers_iff hs e hp.1, and_assoc]
    exact Iff.rfl

/-- The bytes that a call copies fit exactly if nothing is pending or the length of the
descriptor fits. -/
theorem copied_le_iff (bp : Qedi) (pkt : Packet) :
    (qediRead bp pkt).copied ≤ pkt.maxBufSize ↔
      bp.uctrl.hostRxBdCons = bp.uctrl.hwRxBdProd ∨
        toInt32 (bp.rxCompRing bp.uctrl.hwRxBdProd).rxPktLen ≤ pkt.maxBufSize := by
  unfold qediRead
  dsimp only
  by_cases hsame : bp.uctrl.hostRxBdCons = bp.uctrl.hwRxBdProd
  · simp [hsame]
  · rw [if_pos hsame]
    split
    · simp only [hsame, false_or]
      omega
    · simp only [hsame, false_or, Nat.zero_le, true_iff]
      omega

/-- In every run with a driver that keeps its promise the frames are delivered in order, each
once, exactly if no call finds a pending frame that differs from the newest one; and a
call copies no more than the packet holds exactly if nothing is pending or the length of
the newest descriptor fits. -/
theorem frames_delivered_iff (es : List Event) (hp : Guarded step Promised initial es) :
    (Delivers (run step initial es) ↔ Guarded step NewestNext initial es) ∧
      ∀ (bp : Qedi) (pkt : Packet),
        (qediRead bp pkt).copied ≤ pkt.maxBufSize ↔
          bp.uctrl.hostRxBdCons = bp.uctrl.hwRxBdProd ∨
            toInt32 (bp.rxCompRing bp.uctrl.hwRxBdProd).rxPktLen ≤ pkt.maxBufSize := by
  refine ⟨?_, copied_le_iff⟩
  rw [run_delivers_iff inv_initial es hp]
  refine and_iff_right ⟨prefix_rfl, ?_⟩
  intro n hn
  simp [initial] at hn

def oneFrame : List Event := [.frame 1 ⟨[1, 2, 3], 5⟩, .read, .read]

/-- A frame that is read before the next one arrives. -/
theorem frames_delivered_one :
    (run step initial oneFrame).delivered = [⟨[1, 2, 3], 5⟩] ∧
      Delivers (run step initial oneFrame) := by
  refine ⟨by decide +kernel, ?_⟩
  rw [(frames_delivered_iff oneFrame (by simp [oneFrame, Guarded, Promised]; decide)).1]
  refine ⟨trivial, ?_, ?_, trivial⟩
  · intro _
    rfl
  · intro hpending
    exact absurd (by decide +kernel) hpending

def twoFrames : List Event := [.frame 1 ⟨[1], 0⟩, .frame 2 ⟨[2], 0⟩, .read, .read]

/-- Two frames pending: the second is delivered twice and the first never. A descriptor with a
longer length is copied past the end of the packet. -/
theorem frames_skipped :
    Guarded step Promised initial twoFrames ∧
      (run step initial twoFrames).delivered = [⟨[2], 0⟩, ⟨[2], 0⟩] ∧
      ¬ Delivers (run step initial twoFrames) ∧
      (qediRead ⟨⟨1, 0, 0, 0⟩, fun _ => ⟨0, 1501, 0⟩, fun _ => 0⟩ allocPacket).copied = 1501 := by
  refine ⟨by simp [twoFrames, Guarded, Promised]; decide, by decide +kernel, ?_, by decide +kernel⟩
  intro hdelivers
  exact absurd hdelivers.1 (by decide +kernel)

end QediRing
