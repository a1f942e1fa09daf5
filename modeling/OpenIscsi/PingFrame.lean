import Mathlib

/-!
# The size of a ping frame

`perform_ping`, the two functions that build an echo request and `alloc_free_queue`, as far as
the end of the frame in the packet buffer depends on them.
-/

namespace PingFrame

def stdMtuSize : Nat := 1500
def minMtuSupport : Nat := 46
def maxMtuSupport : Nat := 9000

def uipLlhLen : Nat := 14
def uipIpv4HLen : Nat := 20
def uipIpv6HLen : Nat := 40
def icmpHdrLen : Nat := 8

inductive Protocol where
  | inet
  | inet6
  deriving DecidableEq, Repr

/-- `mtu` is 0 where none was accepted. -/
structure Iface where
  protocol : Protocol
  mtu : Nat

/-- The interface that `parse_iface` makes for a record with this MTU. -/
def parseIface (protocol : Protocol) (mtu : Nat) : Iface :=
  ⟨protocol, if minMtuSupport ≤ mtu ∧ mtu ≤ maxMtuSupport then mtu else 0⟩

/-- What else a ping needs: the NIC, the neighbour, a packet and, for IPv6, a source address. -/
structure Met where
  running : Bool
  arpEntry : Bool
  freePacket : Bool
  srcAddr : Bool

/-- `max_buf_size` of the packets of `alloc_free_queue`. -/
def maxBufSize : Nat := stdMtuSize

/-- The end of the payload in the buffer; `none` is `ISCSI_PING_OVERSIZE_PACKET`. -/
def prepareIcmpv4ReqPkt (iface : Iface) (datalen : Nat) : Option Nat :=
  let mtu := if iface.mtu ≠ 0 then iface.mtu else 1500
  if (mtu : Int) - (uipIpv4HLen + icmpHdrLen : Nat) > datalen then
    some (uipLlhLen + (uipIpv4HLen + icmpHdrLen) + datalen)
  else none

def prepareIcmpv6ReqPkt (datalen : Nat) : Nat :=
  uipLlhLen + (uipIpv6HLen + icmpHdrLen) + datalen

/-- `perform_ping` with `do_ping_from_nic_iface`, up to the frame: where it ends, or `none`. -/
def performPing (met : Met) (iface : Iface) (datalen : Int) : Option Nat :=
  if datalen > stdMtuSize ∨ datalen < 0 then none
  else if !met.running then none
  else if !met.arpEntry then none
  else if !met.freePacket then none
  else match iface.protocol with
    | .inet => prepareIcmpv4ReqPkt iface datalen.toNat
    | .inet6 => if !met.srcAddr then none else some (prepareIcmpv6ReqPkt datalen.toNat)

def Fits (met : Met) (iface : Iface) (datalen : Int) : Prop :=
  ∀ frameEnd, performPing met iface datalen = some frameEnd → frameEnd ≤ maxBufSize

/-- The payload that the buffer has room for. -/
def roomFor : Protocol → Int
  | .inet => 1458
  | .inet6 => 1438

/-- The MTU of an IPv4 interface leaves less. -/
def OverMtu (iface : Iface) (datalen : Int) : Prop :=
  iface.protocol = .inet ∧ (if iface.mtu ≠ 0 then iface.mtu else 1500 : Nat) ≤ datalen + 28

def Unmet (met : Met) (iface : Iface) : Prop :=
  ¬ (met.running ∧ met.arpEntry ∧ met.freePacket) ∨ (iface.protocol = .inet6 ∧ ¬ met.srcAddr)

theorem performPing_inet {met : Met} {iface : Iface} {datalen : Int} {frameEnd : Nat}
    (hp : iface.protocol = .inet) : performPing met iface datalen = some frameEnd ↔
      (0 ≤ datalen ∧ datalen ≤ 1500) ∧ ¬ Unmet met iface ∧ ¬ OverMtu iface datalen ∧
        (frameEnd : Int) = 42 + datalen := by
  obtain ⟨running, arpEntry, freePacket, srcAddr⟩ := met
  simp only [performPing, prepareIcmpv4ReqPkt, Unmet, OverMtu, hp, stdMtuSize, uipLlhLen,
    uipIpv4HLen, icmpHdrLen]
  cases running <;> cases arpEntry <;> cases freePacket <;> simp
  split_ifs <;> simp <;> omega

theorem performPing_inet6 {met : Met} {iface : Iface} {datalen : Int} {frameEnd : Nat}
    (hp : iface.protocol = .inet6) : performPing met iface datalen = some frameEnd ↔
      (0 ≤ datalen ∧ datalen ≤ 1500) ∧ ¬ Unmet met iface ∧ (frameEnd : Int) = 62 + datalen := by
  obtain ⟨running, arpEntry, freePacket, srcAddr⟩ := met
  simp only [performPing, prepareIcmpv6ReqPkt, Unmet, hp, stdMtuSize, uipLlhLen, uipIpv6HLen,
    icmpHdrLen]
  cases running <;> cases arpEntry <;> cases freePacket <;> cases srcAddr <;> simp
  omega

/-- A frame that is built lies in the buffer exactly if the buffer has room for the payload. -/
theorem ping_fits_iff (met : Met) (protocol : Protocol) (mtu : Nat) (datalen : Int) :
    Fits met (parseIface protocol mtu) datalen ↔
      datalen ≤ roomFor protocol ∨ stdMtuSize < datalen ∨
        OverMtu (parseIface protocol mtu) datalen ∨ Unmet met (parseIface protocol mtu) := by
  unfold Fits
  generalize hi : parseIface protocol mtu = iface
  have hprotocol : iface.protocol = protocol := by rw [← hi]; rfl
  simp only [maxBufSize, stdMtuSize]
  cases protocol with
  | inet =>
    simp only [performPing_inet hprotocol, roomFor]
    constructor
    · intro h
      by_contra hnot
      simp only [not_or] at hnot
      have hend := h (42 + datalen).toNat ⟨by omega, hnot.2.2.2, hnot.2.2.1, by omega⟩
      omega
    · rintro h frameEnd ⟨hrange, hmet, hmtu, hend⟩
      rcases h with h | h | h | h
      · omega
      · omega
      · exact absurd h hmtu
      · exact absurd h hmet
  | inet6 =>
    simp only [performPing_inet6 hprotocol, roomFor]
    constructor
    · intro h
      by_contra hnot
      simp only [not_or] at hnot
      have hend := h (62 + datalen).toNat ⟨by omega, hnot.2.2.2, by omega⟩
      omega
    · rintro h frameEnd ⟨hrange, hmet, hend⟩
      rcases h with h | h | h | h
      · omega
      · omega
      · rw [OverMtu, hprotocol] at h
        cases h.1
      · exact absurd h hmet

/-- The largest payloads that are accepted with the MTU unset. -/
theorem ping_overflows :
    performPing ⟨true, true, true, true⟩ (parseIface .inet 0) 1471 = some 1513 ∧
      performPing ⟨true, true, true, true⟩ (parseIface .inet6 0) 1500 = some 1562 ∧
      maxBufSize = 1500 := by
  decide

end PingFrame
