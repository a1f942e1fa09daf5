import OpenIscsi.Ipv6Checksum

/-!
# The reply to an IPv6 echo request

`ipv6_icmp_handle_echo_request` makes the reply in the buffer that holds the request. The buffer
goes on behind the received bytes with what earlier packets have left there.
-/

namespace EchoReply

open ByteMemory Ipv6Checksum

def icmpv6EchoRequest : UInt8 := 128
def icmpv6EchoReply : UInt8 := 129

/-- What of `struct ipv6_context` the headers of a packet are made from. -/
structure Context where
  macAddr : Vector UInt8 6
  hopLimit : UInt8
  linkLocalAddr : Vector UInt8 16

/-- A received frame of `len` bytes; its IPv6 header, behind a VLAN tag or not, is at `ip`. -/
structure Frame where
  mem : Mem
  len : Nat
  ip : Nat
  fits : len ≤ 1500
  layer : ip = 14 ∨ ip = 18

def initHopLimit (c : Context) (m : Mem) (ip : Nat) : Mem :=
  if m (ip + 7) = 0 then store m (ip + 7) [c.hopLimit] else m

def initSrc (c : Context) (m : Mem) (ip : Nat) : Mem :=
  if load m (ip + 8) 4 = [0, 0, 0, 0] then store m (ip + 8) c.linkLocalAddr.toList else m

def ipv6SetupHdrs (c : Context) (m : Mem) (ip : Nat) : Mem :=
  let m := store (store m 12 [0x86, 0xdd]) 6 c.macAddr.toList
  let m := store m ip [0x60, 0, 0, 0]
  ipv6InsertProtocolChksum (initSrc c (initHopLimit c m ip) ip) ip

/-- The length is a `u16_t`. -/
def ipv6Send (c : Context) (m : Mem) (ip packetLen : Nat) : Mem × Nat :=
  (ipv6SetupHdrs c m ip, packetLen % 2 ^ 16)

def ipv6IcmpHandleEchoRequest (c : Context) (m : Mem) (ip : Nat) : Mem × Nat :=
  let m := store m 0 (load m 6 6)
  let temp := load m (ip + 24) 16
  let m := store m (ip + 24) (load m (ip + 8) 16)
  let m := store m (ip + 8) temp
  let m := store m (ip + 7) [c.hopLimit]
  let m := store m (ip + 40) [icmpv6EchoReply, 0, 0, 0]
  ipv6Send c m ip (ip + 40 + 40 + ipv6Plen m ip)

/-- The frame passes the checks of `uip_process` and goes to the handler. -/
structure EchoRequest (f : Frame) : Prop where
  version : f.mem f.ip &&& 0xf0 = 0x60
  plen : ipv6Plen f.mem f.ip ≤ f.len
  nxtHdr : ipv6NxtHdr f.mem f.ip = ipprotoIcmpv6
  type : f.mem (f.ip + 40) = icmpv6EchoRequest

def reply (c : Context) (f : Frame) : Mem × Nat := ipv6IcmpHandleEchoRequest c f.mem f.ip

def sent (r : Mem × Nat) : List UInt8 := load r.1 0 r.2

structure Right (c : Context) (f : Frame) : Prop where
  length : (sent (reply c f)).length = f.ip + 40 + ipv6Plen f.mem f.ip
  body : ∀ i < ipv6Plen f.mem f.ip, i ≠ 0 → i ≠ 2 → i ≠ 3 →
    (reply c f).1 (f.ip + 40 + i) = f.mem (f.ip + 40 + i)
  src : load (reply c f).1 (f.ip + 8) 16 = load f.mem (f.ip + 24) 16
  dst : load (reply c f).1 (f.ip + 24) 16 = load f.mem (f.ip + 8) 16
  received : ∀ g : Frame, g.len = f.len → g.ip = f.ip → (∀ a < f.len, g.mem a = f.mem a) →
    sent (reply c g) = sent (reply c f)

theorem store_outside (m : Mem) {p a : Nat} {bytes : List UInt8}
    (h : a < p ∨ p + bytes.length ≤ a) : store m p bytes a = m a := by
  rw [store, if_neg (by omega)]

/-- The payload length is that of the request. -/
theorem reply_len (c : Context) (f : Frame) :
    (reply c f).2 = (f.ip + 40 + 40 + ipv6Plen f.mem f.ip) % 2 ^ 16 := by
  have hip := f.layer
  unfold reply ipv6IcmpHandleEchoRequest ipv6Send
  dsimp only
  generalize hm : store _ (f.ip + 40) _ = m
  have hkept : ∀ q, f.ip + 4 ≤ q → q < f.ip + 7 → m q = f.mem q := by
    intro q hlow hhigh
    rw [← hm, store_outside _ (.inl (by omega)), store_outside _ (.inl (by omega)),
      store_outside _ (.inl (by omega)), store_outside _ (.inl (by omega)),
      store_outside _ (by rw [load_length]; omega)]
  rw [ipv6Plen, ipv6Plen, word, word, hkept _ (by omega) (by omega), hkept _ (by omega) (by omega)]

/-- No echo request is answered as it should be: forty bytes too many are sent. -/
theorem echo_reply_iff (c : Context) (f : Frame) :
    ((EchoRequest f → Right c f) ↔ ¬ EchoRequest f) ∧ (EchoRequest f →
      (sent (reply c f)).length = f.ip + 40 + ipv6Plen f.mem f.ip + 40) := by
  have hlength : EchoRequest f →
      (sent (reply c f)).length = f.ip + 40 + ipv6Plen f.mem f.ip + 40 := by
    intro h
    have hplen := h.plen
    have hfits := f.fits
    have hip := f.layer
    rw [sent, load_length, reply_len, Nat.mod_eq_of_lt (by omega)]
    omega
  refine ⟨⟨fun hright h => ?_, fun hnot h => absurd h hnot⟩, hlength⟩
  have hsame := (hright h).length
  rw [hlength h] at hsame
  omega

/-- A request without data, received into a buffer full of ones. -/
def pingFrame : Frame where
  mem := store (fun _ => 255) 0 (List.replicate 12 2 ++ [0x86, 0xdd, 0x60, 0, 0, 0, 0, 8, 58, 64] ++
    List.replicate 32 1 ++ [128, 0, 0, 0, 0, 0, 0, 1])
  len := 62
  ip := 14
  fits := by decide
  layer := .inl rfl

theorem ping_reply_leaks : EchoRequest pingFrame ∧
    (sent (reply ⟨.replicate 6 0, 64, .replicate 16 1⟩ pingFrame)).length = 102 ∧
    (sent (reply ⟨.replicate 6 0, 64, .replicate 16 1⟩ pingFrame)).drop 62 = .replicate 40 255 := by
  refine ⟨⟨?_, ?_, ?_, ?_⟩, ?_⟩ <;> decide +kernel

end EchoReply
