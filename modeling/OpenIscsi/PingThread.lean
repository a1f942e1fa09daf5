import OpenIscsi.Lib.Runs
import OpenIscsi.PingFrame

/-!
# Pings and echo replies

`parse_iface` and `perform_ping` of `iscsid_ipc.c`, `do_ping_from_nic_iface` and
`process_icmp_packet` of `ping.c`, for one interface. A step is what a thread does between two
points at which a frame can come in.
-/

namespace PingThread

open Runs
open PingFrame (Protocol Iface prepareIcmpv4ReqPkt stdMtuSize)

def iscsiPingSuccess : Int := 0
def iscsiPingTimeout : Int := 4
def iscsiPingOversizePacket : Int := 6
def iscsiPingNoArpReceived : Int := 9
def pingInitState : Int := -1

def eio : Int := 5
def eagain : Int := 11
def einval : Int := 22

/-- `struct ping_conf`, as `memset` leaves it. -/
structure PingConf where
  state : Int := 0
  proto : Option Protocol := none
  id : UInt16 := 0
  seqno : UInt16 := 0
  datalen : Nat := 0
  deriving DecidableEq

structure EchoHdr where
  type : UInt8
  icode : UInt8
  id : UInt16
  seqno : UInt16

def echoReply : Protocol → UInt8
  | .inet => 0
  | .inet6 => 129

def hostToNet16 (n : UInt16) : UInt16 := n <<< 8 ||| n >>> 8

def pingInit (conf : PingConf) (type : Protocol) (datalen : Nat) : PingConf :=
  { conf with proto := some type, state := pingInitState, datalen := datalen }

def processIcmpPacket (icmpHdr : EchoHdr) (pngC : PingConf) : PingConf :=
  if (icmpHdr.type = echoReply .inet6 ∧ pngC.proto = some .inet6) ∨
      (icmpHdr.type = echoReply .inet ∧ pngC.proto = some .inet) then
    if icmpHdr.icode = 0 ∧ icmpHdr.id = pngC.id ∧ icmpHdr.seqno = pngC.seqno then
      { pngC with state := iscsiPingSuccess }
    else pngC
  else pngC

/-- Where the ping is: its block is published, the neighbour is looked up, the request was sent,
`rc` is returned and stored, the thread has ended, the block was freed and the pointer not. -/
inductive Phase where
  | started | resolving | waiting (rc : Int) | finishing (rc : Int) | storing (rc : Int)
  | exited | clearing
  deriving DecidableEq

/-- A ping with its block `conf`, whose numbers are those of the request once this is sent.
Whether it was answered since then is written down for the statements only. -/
structure Ping where
  nicIface : Iface
  datalen : Int
  phase : Phase := .started
  conf : PingConf := {}
  sent : Bool := false
  answered : Bool := false

inductive Event where
  | ping (nicIface : Iface) (datalen : Int)
  | noThread (rc : Nat)
  | nicState (timedOut running : Bool)
  | request (arp : Int) (pid ipid : UInt16) (freePacket : Bool) (srcRc ethRc : Int)
  | poll (up : Bool) (rc : Int) (expired : Bool)
  | next
  | clear
  | frame (af : Protocol) (icmpHdr : EchoHdr)

/-- The request is built and, unless something is missing, sent. -/
def Ping.send (j : Ping) (pid ipid : UInt16) (freePacket : Bool) (srcRc ethRc : Int) : Ping :=
  if !freePacket then { j with phase := .finishing (-eio) }
  else match j.nicIface.protocol with
    | .inet =>
      let conf := { j.conf with id := pid, seqno := ipid + 1 }
      if prepareIcmpv4ReqPkt j.nicIface conf.datalen = none then
        { j with conf := { conf with state := iscsiPingOversizePacket }, phase := .finishing (-einval) }
      else { j with conf, sent := true, phase := .waiting 0 }
    | .inet6 =>
      if srcRc ≠ 0 then { j with phase := .finishing srcRc }
      else
        let conf := { j.conf with id := hostToNet16 pid, seqno := hostToNet16 (ipid + 1) }
        if ethRc ≠ 0 then { j with conf, phase := .finishing ethRc }
        else { j with conf, sent := true, phase := .waiting 0 }

/-- One turn of the loop that waits for the reply; `up` is its condition. -/
def Ping.poll (j : Ping) (last : Int) (up : Bool) (rc : Int) (expired : Bool) : Ping :=
  if !up then { j with phase := .finishing last }
  else if rc = 0 ∧ j.conf.state = iscsiPingSuccess then { j with phase := .finishing rc }
  else if expired then
    { j with conf := { j.conf with state := iscsiPingTimeout }, phase := .finishing (-eio) }
  else { j with phase := .waiting rc }

/-- `perform_ping` before the request: the length and the NIC are checked. -/
def Ping.start (j : Ping) (timedOut running : Bool) : Ping :=
  let rc := if timedOut then -eagain else 0
  if j.datalen > stdMtuSize ∨ j.datalen < 0 then { j with phase := .exited }
  else if rc ≠ 0 ∨ !running then { j with conf := { j.conf with state := rc }, phase := .exited }
  else { j with conf := pingInit j.conf j.nicIface.protocol j.datalen.toNat, phase := .resolving }

/-- IPv4 wants 0 from the neighbour table, IPv6 a positive number. -/
def Ping.resolve (j : Ping) (arp : Int) (pid ipid : UInt16) (freePacket : Bool)
    (srcRc ethRc : Int) : Ping :=
  if (arp ≠ 0 ∧ j.nicIface.protocol = .inet) ∨ (arp < 1 ∧ j.nicIface.protocol = .inet6) then
    { j with conf := { j.conf with state := iscsiPingNoArpReceived }, phase := .finishing arp }
  else j.send pid ipid freePacket srcRc ethRc

/-- The ping thread, and `parse_iface` around it. -/
def Ping.work (j : Ping) (e : Event) : Ping :=
  match j.phase, e with
  | .started, .noThread _ => { j with phase := .clearing }
  | .started, .nicState timedOut running => j.start timedOut running
  | .resolving, .request arp pid ipid freePacket srcRc ethRc =>
    j.resolve arp pid ipid freePacket srcRc ethRc
  | .waiting last, .poll up rc expired => j.poll last up rc expired
  | .finishing rc, .next =>
    if j.conf.state = -1 then { j with phase := .storing rc } else { j with phase := .exited }
  | .storing rc, .next => { j with conf := { j.conf with state := rc }, phase := .exited }
  | .exited, .next =>
    let state := if j.conf.state = -eagain then 0 else j.conf.state
    { j with conf := { j.conf with state }, phase := .clearing }
  | _, _ => j

/-- What `parse_iface` returns, and whether the request had been answered by then. -/
def Ping.report (j : Ping) (e : Event) : Option (Int × Bool) :=
  match j.phase, e with
  | .started, .noThread rc => some (rc + 1, false)
  | .exited, .next => some (j.conf.state, j.answered)
  | _, _ => none

/-- The pointer of the stack is set while there is a ping; `stray` is an access through it that
finds no block. -/
structure State where
  ping : Option Ping := none
  reports : List (Int × Bool) := []
  stray : Bool := false

/-- An echo reply reaches `process_icmp_packet`, which follows the pointer. -/
def receive (s : State) (af : Protocol) (icmpHdr : EchoHdr) : State :=
  match s.ping with
  | none => { s with stray := true }
  | some j =>
    if j.phase = .clearing then { s with stray := true }
    else { s with ping := some { j with
      conf := processIcmpPacket icmpHdr j.conf
      answered := j.answered || (j.sent && j.conf.proto = some af && icmpHdr.id = j.conf.id &&
        icmpHdr.seqno = j.conf.seqno) } }

def step (s : State) (e : Event) : State :=
  match e, s.ping with
  | .frame af icmpHdr, _ => if icmpHdr.type = echoReply af then receive s af icmpHdr else s
  | .ping nicIface datalen, none => { s with ping := some { nicIface, datalen } }
  | .clear, some j => if j.phase = .clearing then { s with ping := none } else s
  | e, some j =>
    { s with ping := some (j.work e), reports := (j.report e).toList ++ s.reports }
  | _, none => s

/-! ### What a ping knows -/

/-- Success is the state of a ping that was answered. -/
def Ping.Fair (j : Ping) : Prop := j.conf.state = iscsiPingSuccess → j.answered = true

structure Ping.Sound (j : Ping) : Prop where
  fair : j.phase ≠ .started → j.phase ≠ .clearing → j.Fair
  finishing : j.phase = .finishing 0 → j.conf.state ≠ pingInitState
  storing : j.phase ≠ .storing 0

theorem processIcmpPacket_cases (icmpHdr : EchoHdr) (pngC : PingConf) :
    processIcmpPacket icmpHdr pngC = pngC ∨
      processIcmpPacket icmpHdr pngC = { pngC with state := iscsiPingSuccess } ∧
        (∃ af, icmpHdr.type = echoReply af ∧ pngC.proto = some af) ∧
        icmpHdr.id = pngC.id ∧ icmpHdr.seqno = pngC.seqno := by
  unfold processIcmpPacket
  split
  · rename_i htype
    split
    · rename_i hid
      exact .inr ⟨rfl, htype.elim (fun h => ⟨_, h⟩) (fun h => ⟨_, h⟩), hid.2⟩
    · exact .inl rfl
  · exact .inl rfl

/-! ### One step -/

/-- The length is one that is sent, the NIC runs or is waited for in vain, and it does not go
down while the ping waits and nothing has failed. -/
def Ping.Timely (j : Ping) : Event → Prop
  | .nicState timedOut running =>
    (0 ≤ j.datalen ∧ j.datalen ≤ stdMtuSize) ∧ (timedOut = true ∨ running = true)
  | .poll up _ _ => up = true ∨ j.phase ≠ .waiting 0 ∨ j.conf.state ≠ pingInitState
  | _ => True

/-- A reply comes while there is a block, and until the request is sent it does not carry the
numbers in the block. -/
def Timely (s : State) (e : Event) : Prop :=
  match e with
  | .frame af icmpHdr => icmpHdr.type = echoReply af →
    ∃ j, s.ping = some j ∧ j.phase ≠ .clearing ∧
      (j.sent = false → ¬ (icmpHdr.id = j.conf.id ∧ icmpHdr.seqno = j.conf.seqno))
  | e => ∀ j, s.ping = some j → j.Timely e

variable {j : Ping}

theorem fair_of_ne (n : Int) (h : j.conf.state = n) (hn : n ≠ iscsiPingSuccess) :
    j.Fair := fun h0 => absurd (h.symm.trans h0) hn

theorem Ping.Sound.over (hp : j.phase = .clearing) : j.Sound :=
  ⟨fun _ h => absurd hp h, by simp [hp], by simp [hp]⟩

/-- A phase that asks for nothing but a fair state. -/
theorem Ping.Fair.sound (h : j.Fair) (h1 : j.phase ≠ .finishing 0) (h2 : j.phase ≠ .storing 0) :
    j.Sound :=
  ⟨fun _ _ => h, fun hp => absurd hp h1, h2⟩

variable {rc : Int}

theorem Ping.Fair.ends (h : j.Fair) (hp : j.phase = .finishing rc)
    (hrc : rc = 0 → j.conf.state ≠ pingInitState) : j.Sound := by
  refine ⟨fun _ _ => h, fun h0 => hrc ?_, by simp [hp]⟩
  rw [hp] at h0
  exact Phase.finishing.inj h0

theorem Ping.Fair.fails (h : j.Fair) (hp : j.phase = .finishing rc) (hrc : rc ≠ 0) : j.Sound :=
  h.ends hp fun h0 => absurd h0 hrc

theorem send_sound (h : j.Fair) (pid ipid : UInt16) (freePacket : Bool) (srcRc ethRc : Int) :
    (j.send pid ipid freePacket srcRc ethRc).Sound := by
  unfold Ping.send
  split
  · exact Ping.Fair.fails h rfl (by decide)
  · split
    · dsimp only
      split
      · exact (fair_of_ne iscsiPingOversizePacket rfl (by decide)).fails rfl (by decide)
      · exact Ping.Fair.sound h (by simp) (by simp)
    · dsimp only
      split
      · rename_i hrc
        exact Ping.Fair.fails h rfl hrc
      · split
        · rename_i hrc
          exact Ping.Fair.fails h rfl hrc
        · exact Ping.Fair.sound h (by simp) (by simp)

theorem start_sound (hlen : 0 ≤ j.datalen ∧ j.datalen ≤ stdMtuSize) {timedOut running : Bool}
    (hup : timedOut = true ∨ running = true) :
    (j.start timedOut running).Sound := by
  unfold Ping.start
  rw [if_neg (by omega)]
  cases timedOut with
  | true =>
    rw [if_pos (.inl (by decide))]
    exact (fair_of_ne (-eagain) rfl (by decide)).sound (by simp) (by simp)
  | false =>
    rw [if_neg (by simpa using hup)]
    exact (fair_of_ne pingInitState rfl (by decide)).sound (by simp) (by simp)

theorem poll_sound (h : j.Fair) {last : Int} {up expired : Bool}
    (hup : up = true ∨ last ≠ 0 ∨ j.conf.state ≠ pingInitState) :
    (j.poll last up rc expired).Sound := by
  unfold Ping.poll
  split
  · rename_i hdown
    exact Ping.Fair.ends h rfl fun h0 => (hup.resolve_left (by simpa using hdown)).resolve_left
      (not_not.mpr h0)
  · split
    · rename_i hok
      refine Ping.Fair.ends h rfl fun _ => ?_
      change j.conf.state ≠ pingInitState
      rw [hok.2]
      decide
    · split
      · exact (fair_of_ne iscsiPingTimeout rfl (by decide)).fails rfl (by decide)
      · exact Ping.Fair.sound h (by simp) (by simp)

/-- The threads go on. -/
theorem Ping.Sound.work (h : j.Sound) {e : Event} (he : j.Timely e) : (j.work e).Sound := by
  unfold Ping.work
  split
  · exact .over rfl
  · exact start_sound he.1 he.2
  · rename_i hphase
    unfold Ping.resolve
    split
    · exact (fair_of_ne iscsiPingNoArpReceived rfl (by decide)).ends rfl
        fun _ => show iscsiPingNoArpReceived ≠ pingInitState by decide
    · exact send_sound (h.fair (by simp [hphase]) (by simp [hphase])) _ _ _ _ _
  · rename_i last up rc expired hphase
    refine poll_sound (h.fair (by simp [hphase]) (by simp [hphase])) ?_
    simpa [Ping.Timely, hphase] using he
  · rename_i rc hphase
    have hf := h.fair (by simp [hphase]) (by simp [hphase])
    split
    · rename_i hstate
      refine ⟨fun _ _ => hf, by simp, fun h0 => h.finishing ?_ hstate⟩
      rw [hphase, Phase.storing.inj h0]
    · exact Ping.Fair.sound hf (by simp) (by simp)
  · rename_i rc hphase
    have hrc : rc ≠ 0 := fun h0 => h.storing (by rw [hphase, h0])
    exact (fair_of_ne rc rfl hrc).sound (by simp) (by simp)
  · exact .over rfl
  · exact h

/-- No access without a block, and no success without an answer. -/
def Right (s : State) : Prop :=
  s.stray = false ∧ ∀ r ∈ s.reports, r.1 = iscsiPingSuccess → r.2 = true

structure Inv (s : State) : Prop where
  right : Right s
  sound : ∀ j, s.ping = some j → j.Sound

theorem inv_ping {s : State} (hs : s.ping = some j) (h : Right s) (hj : j.Sound) : Inv s :=
  ⟨h, fun _ hk => Option.some.inj (hs.symm.trans hk) ▸ hj⟩

/-- A reply with the numbers in the block answers the request. -/
theorem inv_receive {s : State} (h : Inv s) {af : Protocol} {icmpHdr : EchoHdr}
    (he : Timely s (.frame af icmpHdr)) (htype : icmpHdr.type = echoReply af) :
    Inv (receive s af icmpHdr) := by
  obtain ⟨j, hj, hphase, hearly⟩ := he htype
  have hs := h.sound j hj
  unfold receive
  rw [hj]
  dsimp only
  rw [if_neg hphase]
  rcases processIcmpPacket_cases icmpHdr j.conf with heq | ⟨heq, ⟨af', ht, hp⟩, hid, hseq⟩
  · rw [heq]
    refine inv_ping rfl h.right ⟨fun h1 h2 h0 => ?_, hs.finishing, hs.storing⟩
    exact Bool.or_eq_true_iff.mpr (.inl (hs.fair h1 h2 h0))
  · have hsent : j.sent = true := by
      by_contra hno
      exact hearly (by simpa using hno) ⟨hid, hseq⟩
    have hsame : af' = af := by
      have := ht.symm.trans htype
      revert this
      cases af <;> cases af' <;> decide
    rw [heq]
    refine inv_ping rfl h.right ⟨fun _ _ _ => ?_,
      fun _ => show iscsiPingSuccess ≠ pingInitState by decide, hs.storing⟩
    simp [hsent, hp, hsame, hid, hseq]

theorem Ping.Sound.report (h : j.Sound) (e : Event) :
    ∀ r ∈ (j.report e).toList, r.1 = iscsiPingSuccess → r.2 = true := by
  unfold Ping.report
  split
  · refine List.forall_mem_singleton.mpr fun h0 => ?_
    change (_ : Int) + 1 = 0 at h0
    omega
  · rename_i hphase
    exact List.forall_mem_singleton.mpr (h.fair (by simp [hphase]) (by simp [hphase]))
  · simp

theorem inv_step (s : State) (e : Event) (h : Inv s) (he : Timely s e) : Inv (step s e) := by
  unfold step
  split
  · split
    · rename_i htype
      exact inv_receive h he htype
    · exact h
  · exact inv_ping rfl h.right ⟨fun h0 => absurd rfl h0, by simp, by simp⟩
  · split
    · exact ⟨h.right, by simp⟩
    · exact h
  · rename_i j hframe _ hj
    have hs := h.sound j hj
    refine inv_ping rfl ⟨h.right.1, List.forall_mem_append.mpr ⟨hs.report _, h.right.2⟩⟩ (hs.work ?_)
    unfold Timely at he
    split at he
    · exact (hframe _ _ rfl).elim
    · exact he j hj
  · exact h

end PingThread
