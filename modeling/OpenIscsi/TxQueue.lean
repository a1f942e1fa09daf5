import OpenIscsi.ArpTable
import OpenIscsi.Lib.Runs

/-!
# Packets that wait for ARP

`prepare_ipv4_packet` of `nic.c` queues a packet whose next hop is not in the ARP table with
`nic_queue_tx_packet`, and the `clear_tx_intr` functions of the drivers take it from the queue
when a transmission is complete. A queued buffer is named by the number of buffers allocated
before it. The results of the drivers' functions, which only their retry loops read, are
left out.
-/

namespace TxQueue

open ArpTable Runs List

/-! ## The functions -/

/-- The addresses of `struct uip_stack`. -/
structure Ustack where
  hostaddr : Ip4
  netmask : Ip4
  defaultRouteAddr : Ip4
  uipEthaddr : Mac

/-- A packet for `prepare_ipv4_packet`: its buffer from `data_link_layer` on, the destination
in its IP header and whether `network_layer` lies behind a header with a VLAN tag. -/
structure Packet where
  buf : List UInt8
  bufSize : Nat
  destipaddr : Ip4
  vlan : Bool

/-- A buffer of `nic_alloc_packet_buffer`, with the next hop of its packet. -/
structure Queued where
  id : Nat
  buf : List UInt8
  nextHop : Ip4
  deriving DecidableEq

def broadcastIpaddr : Ip4 := ⟨0xffff, 0xffff⟩
def broadcastEthaddr : Mac := List.replicate 6 0xff
def sizeofEthHdr : Nat := 14
def sizeofVlanEthHdr : Nat := 18

def uipIp4addrMaskcmp (addr1 addr2 mask : Ip4) : Bool :=
  addr1.w0 &&& mask.w0 == addr2.w0 &&& mask.w0 && addr1.w1 &&& mask.w1 == addr2.w1 &&& mask.w1

def uipDetermineDestIpv4Addr (ustack : Ustack) (destipaddr : Ip4) : Option Ip4 :=
  if destipaddr = broadcastIpaddr then none
  else if uipIp4addrMaskcmp destipaddr ustack.hostaddr ustack.netmask = false then
    some ustack.defaultRouteAddr
  else some destipaddr

/-- The tag is taken out of the buffer. -/
def stripVlan (pkt : Packet) : List UInt8 :=
  if pkt.vlan then
    let moved := (pkt.buf.drop (sizeofVlanEthHdr - 2)).take (pkt.bufSize - sizeofVlanEthHdr + 2)
    pkt.buf.take 12 ++ moved ++ pkt.buf.drop (12 + moved.length)
  else pkt.buf

def uipBuildEthHeader (ustack : Ustack) (dest : Mac) (buf : List UInt8) (bufSize : Nat) :
    List UInt8 × Nat :=
  (dest ++ ustack.uipEthaddr ++ [0x08, 0x00] ++ buf.drop sizeofEthHdr, bufSize + sizeofEthHdr)

/-- What `prepare_ipv4_packet` makes of a packet. -/
inductive Prepared
  | framed (buf : List UInt8) (bufSize : Nat)
  | queued (buf : List UInt8) (nextHop : Ip4)
  | notQueued
  deriving DecidableEq

/-- `prepare_ipv4_packet`. If the packet is queued, an ARP request for its next hop is sent in
its place; `alloc` says that `nic_alloc_packet_buffer` gets memory. -/
def prepareIpv4Packet (arp : Arp) (ustack : Ustack) (pkt : Packet) (alloc : Bool) : Prepared :=
  let buf := stripVlan pkt
  match uipDetermineDestIpv4Addr ustack pkt.destipaddr with
  | none =>
    let (buf, bufSize) := uipBuildEthHeader ustack broadcastEthaddr buf pkt.bufSize
    .framed buf bufSize
  | some ipaddr =>
    match isInArpTable arp ipaddr with
    | some e =>
      let (buf, bufSize) := uipBuildEthHeader ustack e.ethaddr buf pkt.bufSize
      .framed buf bufSize
    | none => if alloc then .queued (buf.take pkt.bufSize) ipaddr else .notQueued

/-- `bnx2_prepare_xmit_packet` and its siblings: the frame in the transmit buffer. -/
def prepareXmitPacket (buf : List UInt8) : List UInt8 :=
  if (buf.drop 12).take 2 = [0x81, 0x00] then buf.take 12 ++ buf.drop 16 else buf

structure Nic where
  txPacketQueue : List Queued
  txCons : Nat

/-- The common part of the `clear_tx_intr` functions: the first packet of the queue
is sent. -/
def sendQueued (nic : Nic) (hwCons : Nat) : Nic × Option Queued :=
  ({ txPacketQueue := nic.txPacketQueue.tail, txCons := hwCons }, nic.txPacketQueue.head?)

def bnx2ClearTxIntr (nic : Nic) (hwCons : Nat) : Nic × Option Queued := sendQueued nic hwCons

def bnx2xClearTxIntr (nic : Nic) (hwCons : Nat) (trylock : Bool) : Nic × Option Queued :=
  if nic.txCons = hwCons then (nic, none)
  else if trylock = false then (nic, none)
  else sendQueued nic hwCons

def qediClearTxIntr : Nic → Nat → Bool → Nic × Option Queued := bnx2xClearTxIntr

/-! ## Runs -/

inductive Driver
  | bnx2 | bnx2x | qedi

def clearTxIntr (driver : Driver) (nic : Nic) (hwCons : Nat) (trylock : Bool) :
    Nic × Option Queued :=
  match driver with
  | .bnx2 => bnx2ClearTxIntr nic hwCons
  | .bnx2x => bnx2xClearTxIntr nic hwCons trylock
  | .qedi => qediClearTxIntr nic hwCons trylock

structure Sent where
  pkt : Queued
  frame : List UInt8
  arp : Arp

/-- The NIC and the ARP table, with the buffers that were ever queued, those sent, and the
numbers of those freed: no function of the sources frees one. -/
structure State where
  nic : Nic
  arp : Arp
  queued : List Queued
  sent : List Sent
  freed : List Nat

inductive Event
  | packet (ustack : Ustack) (pkt : Packet) (alloc : Bool)
  | arpReply (ipaddr : Ip4) (ethaddr : Mac)
  | arpTimer
  | txIntr (driver : Driver) (hwCons : Nat) (trylock : Bool)

def initial : State := ⟨⟨[], 0⟩, uipArpInit, [], [], []⟩

def enqueue (s : State) (buf : List UInt8) (nextHop : Ip4) : State :=
  let q : Queued := ⟨s.queued.length, buf, nextHop⟩
  { s with
    nic := { s.nic with txPacketQueue := s.nic.txPacketQueue ++ [q] }
    queued := s.queued ++ [q] }

def step (s : State) : Event → State
  | .packet ustack pkt alloc =>
    match prepareIpv4Packet s.arp ustack pkt alloc with
    | .queued buf nextHop => enqueue s buf nextHop
    | _ => s
  | .arpReply ipaddr ethaddr => { s with arp := uipArpUpdate s.arp ipaddr ethaddr }
  | .arpTimer => { s with arp := uipArpTimer s.arp }
  | .txIntr driver hwCons trylock =>
    let (nic, taken) := clearTxIntr driver s.nic hwCons trylock
    { s with
      nic
      sent := s.sent ++ (taken.map fun q => ⟨q, prepareXmitPacket q.buf, s.arp⟩).toList }

/-- The table has an entry for the next hop, and the frame carries its address. -/
def Addressed (arp : Arp) (q : Queued) : Prop :=
  ∃ e, isInArpTable arp q.nextHop = some e ∧ (prepareXmitPacket q.buf).take 6 = e.ethaddr

/-- Queued packets leave in order and at most once. -/
def Ordered (s : State) : Prop :=
  s.sent.map Sent.pkt <+: s.queued ∧ (s.queued.map Queued.id).Nodup

/-- Everything that is asked of the waiting packets. -/
structure Right (s : State) : Prop where
  ordered : Ordered s
  addressed : ∀ x ∈ s.sent, Addressed x.arp x.pkt
  freed : ∀ x ∈ s.sent, s.freed.count x.pkt.id = 1
  kept : ∀ q ∈ s.nic.txPacketQueue, s.freed.count q.id = 0

/-- The packet that a completion takes from the queue. -/
def taken (s : State) : Event → Option Queued
  | .txIntr driver hwCons trylock => (clearTxIntr driver s.nic hwCons trylock).2
  | _ => none

/-- A completion takes only a packet whose buffer already carries the address that the table
has for its next hop. -/
def Resolved (s : State) (e : Event) : Prop := ∀ q ∈ taken s e, Addressed s.arp q

/-- A completion finds no packet to take. -/
def NoneTaken (s : State) (e : Event) : Prop := taken s e = none
/-- What every run keeps: the queue is the rest of the packets behind those sent, packets are
numbered as they come, and nothing is freed. -/
structure Inv (s : State) : Prop where
  rest : s.queued = s.sent.map Sent.pkt ++ s.nic.txPacketQueue
  numbered : s.queued.map Queued.id = List.range s.queued.length
  unfreed : s.freed = []

theorem inv_initial : Inv initial := ⟨rfl, rfl, rfl⟩

theorem clearTxIntr_rest (driver : Driver) (nic : Nic) (hwCons : Nat) (trylock : Bool) :
    nic.txPacketQueue = (clearTxIntr driver nic hwCons trylock).2.toList ++
      (clearTxIntr driver nic hwCons trylock).1.txPacketQueue := by
  have hsend : nic.txPacketQueue =
      (sendQueued nic hwCons).2.toList ++ (sendQueued nic hwCons).1.txPacketQueue := by
    unfold sendQueued
    cases nic.txPacketQueue <;> rfl
  cases driver with
  | bnx2 => exact hsend
  | bnx2x =>
    unfold clearTxIntr bnx2xClearTxIntr
    dsimp only
    split_ifs
    · rfl
    · rfl
    · exact hsend
  | qedi =>
    unfold clearTxIntr qediClearTxIntr bnx2xClearTxIntr
    dsimp only
    split_ifs
    · rfl
    · rfl
    · exact hsend

theorem sent_step (s : State) (e : Event) :
    (step s e).sent =
      s.sent ++ ((taken s e).map fun q => ⟨q, prepareXmitPacket q.buf, s.arp⟩).toList := by
  cases e with
  | packet ustack pkt alloc =>
    unfold step
    dsimp only
    split
    · exact (append_nil _).symm
    · exact (append_nil _).symm
  | arpReply ipaddr ethaddr => exact (append_nil _).symm
  | arpTimer => exact (append_nil _).symm
  | txIntr driver hwCons trylock => rfl

theorem inv_enqueue {s : State} (hs : Inv s) (buf : List UInt8) (nextHop : Ip4) :
    Inv (enqueue s buf nextHop) where
  rest := by
    simp only [enqueue]
    rw [hs.rest, append_assoc]
  numbered := by
    simp only [enqueue]
    rw [map_append, hs.numbered, length_append, length_singleton, range_succ]
    rfl
  unfreed := hs.unfreed

theorem inv_step {s : State} (hs : Inv s) (e : Event) : Inv (step s e) := by
  cases e with
  | packet ustack pkt alloc =>
    unfold step
    dsimp only
    split
    · exact inv_enqueue hs _ _
    · exact hs
  | arpReply ipaddr ethaddr => exact ⟨hs.rest, hs.numbered, hs.unfreed⟩
  | arpTimer => exact ⟨hs.rest, hs.numbered, hs.unfreed⟩
  | txIntr driver hwCons trylock =>
    refine ⟨?_, hs.numbered, hs.unfreed⟩
    rw [sent_step]
    simp only [step, taken]
    rw [map_append, append_assoc, hs.rest]
    congr 1
    conv_lhs => rw [clearTxIntr_rest driver s.nic hwCons trylock]
    cases (clearTxIntr driver s.nic hwCons trylock).2 <;> rfl

theorem inv_run (es : List Event) : Inv (run step initial es) :=
  run_invariant step Inv (fun _ e hs => inv_step hs e) initial inv_initial es

theorem ordered_of_inv {s : State} (hs : Inv s) : Ordered s := by
  constructor
  · rw [hs.rest]
    exact prefix_append _ _
  · rw [hs.numbered]
    exact nodup_range

/-- Every packet sent so far was addressed exactly if each completion met the condition. -/
theorem addressed_run_iff (s : State) (es : List Event) :
    (∀ x ∈ (run step s es).sent, Addressed x.arp x.pkt) ↔
      (∀ x ∈ s.sent, Addressed x.arp x.pkt) ∧ Guarded step Resolved s es := by
  refine run_iff_guarded (I := fun s => ∀ x ∈ s.sent, Addressed x.arp x.pkt) (fun s e => ?_) s es
  rw [sent_step, forall_mem_append]
  unfold Resolved
  cases taken s e with
  | none => simp
  | some q => simp

/-- Nothing was sent exactly if no completion took a packet. -/
theorem sent_run_iff (s : State) (es : List Event) :
    (run step s es).sent = [] ↔ s.sent = [] ∧ Guarded step NoneTaken s es := by
  refine run_iff_guarded (I := fun s => s.sent = []) (fun s e => ?_) s es
  rw [sent_step, append_eq_nil_iff]
  unfold NoneTaken
  cases taken s e with
  | none => simp
  | some q => simp

theorem right_iff_sent {s : State} (hs : Inv s) : Right s ↔ s.sent = [] := by
  constructor
  · intro hright
    rw [eq_nil_iff_forall_not_mem]
    intro x hx
    have hfreed := hright.freed x hx
    rw [hs.unfreed, count_nil] at hfreed
    exact absurd hfreed (by decide)
  · intro hsent
    refine ⟨ordered_of_inv hs, ?_, ?_, ?_⟩
    · rw [hsent]
      exact forall_mem_nil _
    · rw [hsent]
      exact forall_mem_nil _
    · intro q _
      rw [hs.unfreed, count_nil]

/-- In every run queued packets leave in order and at most once. They are addressed right
exactly if each completion takes only a packet whose buffer already carries the address
that the table has for its next hop; and everything holds exactly if no completion finds
a packet in the queue. -/
theorem waiting_packets_iff (es : List Event) :
    Ordered (run step initial es) ∧
      ((∀ x ∈ (run step initial es).sent, Addressed x.arp x.pkt) ↔
        Guarded step Resolved initial es) ∧
      (Right (run step initial es) ↔ Guarded step NoneTaken initial es) := by
  refine ⟨ordered_of_inv (inv_run es), ?_, ?_⟩
  · rw [addressed_run_iff]
    exact and_iff_right (forall_mem_nil _)
  · rw [right_iff_sent (inv_run es), sent_run_iff]
    exact and_iff_right rfl

/-- A packet to 10.0.0.2 in the subnet, whose address nobody has announced yet, and the
completion of the ARP request that is sent in its place. -/
def unresolved : List Event :=
  [.packet ⟨⟨0x000a, 0x0100⟩, ⟨0xffff, 0x00ff⟩, noAddr, [2, 0, 0, 0, 0, 1]⟩
      ⟨List.replicate 60 0, 60, ⟨0x000a, 0x0200⟩, false⟩ true,
    .txIntr .bnx2x 1 true]

/-- The packet is sent before the table has its next hop, to the address zero, and its buffer
is never freed. -/
theorem waiting_packet_lost :
    ((run step initial unresolved).sent.map fun x =>
        (x.frame.take 6, isInArpTable x.arp x.pkt.nextHop)) = [([0, 0, 0, 0, 0, 0], none)] ∧
      (run step initial unresolved).freed = [] ∧ ¬ Right (run step initial unresolved) := by
  refine ⟨by decide +kernel, by decide +kernel, ?_⟩
  intro hright
  have hsent := (right_iff_sent (inv_run unresolved)).mp hright
  have hone : (run step initial unresolved).sent.length = 1 := by decide +kernel
  rw [hsent] at hone
  exact absurd hone (by decide)

end TxQueue
