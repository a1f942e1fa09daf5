import OpenIscsi.Lib.ByteMemory
import OpenIscsi.Netlink

/-!
# Netlink messages of iscsiuio

`pull_from_nl` of `nic_nl.c`, and the fields that `nic_nl_open` and `ctldev_handle` read of the
buffer it returns. Sizes are those of a 64-bit process, numbers are stored little-endian.
-/

namespace NicNetlink

open List

open ByteMemory (ofBytes)
open Netlink (sizeofUevent)

/-- `NLMSG_ALIGN(sizeof(struct nlmsghdr))` -/
def nlmsgHdrlen : Nat := 16

def sizeofPath : Nat := 64

/-- `NLMSG_SPACE(sizeof(struct iscsi_uevent))`, the size of the buffer on the stack. -/
def nlmEvSize : Nat := nlmsgHdrlen + sizeofUevent

def iscsiKeventPathReq : Nat := 107

def iscsiKeventIfDown : Nat := 108

def eio : Int := 5

def enomem : Int := 12

def einval : Int := 22

/-- The number in a field of a buffer. -/
def field (bytes : List UInt8) (start len : Nat) : Nat := ofBytes ((bytes.drop start).take len)

def nlmsgLen (bytes : List UInt8) : Nat := field bytes 0 4

def evType (bytes : List UInt8) : Nat := field bytes nlmsgHdrlen 4

/-! ## `size_t` -/

def sizeBound : Nat := 2 ^ 64

def sizeAdd (a b : Nat) : Nat := (a + b) % sizeBound

def sizeSub (a b : Nat) : Nat := (a + (sizeBound - b)) % sizeBound

/-! ## The buffer -/

/-- The buffer on the stack behind a read with `MSG_PEEK`: what the message does not reach
keeps what was there. -/
def peek (stack msg : List UInt8) : List UInt8 :=
  msg.take nlmEvSize ++ stack.drop (min msg.length nlmEvSize)

/-- The size that is allocated, from the buffer on the stack. -/
def allocSize (nlmEv : List UInt8) : Nat :=
  let len := nlmsgLen nlmEv
  if evType nlmEv = iscsiKeventPathReq then
    let evSize := sizeSub len nlmsgHdrlen
    let payloadSize := sizeSub evSize sizeofUevent
    if payloadSize < sizeofPath then sizeAdd len (sizeSub payloadSize sizeofPath) else len
  else len

/-- A buffer that `pull_from_nl` returns: its size and the bytes stored into it. -/
structure Pulled where
  size : Nat
  received : List UInt8
  deriving DecidableEq

/-- `pull_from_nl` for this message, with the answers of `malloc`. The second read takes the
length as an `int`; as the length of a buffer a negative one is refused. -/
def pullFromNl (malloc : Nat → Bool) (stack msg : List UInt8) : Except Int Pulled :=
  let nlmEv := peek stack msg
  if msg = [] then .error (-eio)
  else if nlmsgLen nlmEv < nlmsgHdrlen then .error (-einval)
  else if malloc (allocSize nlmEv) = false then .error (-enomem)
  else if 2 ^ 31 ≤ nlmsgLen nlmEv then .error einval
  else .ok ⟨allocSize nlmEv, msg.take (nlmsgLen nlmEv)⟩

/-- The content of the buffer, which is cleared before the read. -/
def Pulled.data (p : Pulled) : List UInt8 :=
  p.received ++ List.replicate (p.size - p.received.length) 0

/-! ## The readers -/

/-- A field of `struct iscsi_uevent`: the type, and the host number of either event. -/
def uevent (start len : Nat) : Nat × Nat := (nlmsgHdrlen + start, len)

/-- A field of `struct iscsi_path` behind the event. -/
def path (start len : Nat) : Nat × Nat := (nlmsgHdrlen + sizeofUevent + start, len)

def nicNlOpenReads (type : Nat) : List (Nat × Nat) :=
  uevent 0 4 ::
    if type = iscsiKeventIfDown ∨ type = iscsiKeventPathReq then [uevent 40 4] else []

/-- What `ctldev_handle` reads of a message that is passed on to it: the type, the length of
the address and the VLAN. -/
def ctldevHandleReads (type : Nat) : List (Nat × Nat) :=
  if type = iscsiKeventPathReq then [uevent 0 4, path 20 4, path 56 2] else []

def Pulled.reads (p : Pulled) : List (Nat × Nat) :=
  nicNlOpenReads (evType p.data) ++ ctldevHandleReads (evType p.data)

/-- All that is stored into the buffer and read from it lies inside. -/
def Pulled.Fits (p : Pulled) : Prop :=
  p.received.length ≤ p.size ∧ ∀ r ∈ p.reads, r.1 + r.2 ≤ p.size

/-- The kernel sends a header, and as many bytes as it says. -/
def Whole (msg : List UInt8) : Prop := nlmsgHdrlen ≤ msg.length ∧ nlmsgLen msg ≤ msg.length

/-! ## Sizes -/

variable {len start : Nat}

theorem field_append {bytes more : List UInt8} (h : start + len ≤ bytes.length) :
    field (bytes ++ more) start len = field bytes start len := by
  unfold field
  rw [drop_append_of_le_length (by omega), take_append_of_le_length]
  rw [length_drop]
  omega

theorem field_take {bytes : List UInt8} {n : Nat} (h : start + len ≤ n) :
    field (bytes.take n) start len = field bytes start len := by
  unfold field
  rw [drop_take, take_take]
  congr 2
  omega

variable {msg : List UInt8}

theorem field_peek {stack : List UInt8} (hmsg : start + len ≤ msg.length)
    (hev : start + len ≤ nlmEvSize) : field (peek stack msg) start len = field msg start len := by
  unfold peek
  rw [field_append, field_take hev]
  rw [length_take]
  omega

variable {nlmEv : List UInt8}

theorem allocSize_other (h : evType nlmEv ≠ iscsiKeventPathReq) :
    allocSize nlmEv = nlmsgLen nlmEv := by
  unfold allocSize
  rw [if_neg h]

theorem sizeSub_of_le {a b : Nat} (h : b ≤ a) (ha : a < sizeBound) : sizeSub a b = a - b := by
  unfold sizeSub
  have hsum : a + (sizeBound - b) = a - b + sizeBound := by omega
  rw [hsum, Nat.add_mod_right, Nat.mod_eq_of_lt (by omega)]

theorem sizeSub_of_lt {a b : Nat} (h : a < b) (hb : b ≤ sizeBound) :
    sizeSub a b = a + (sizeBound - b) := by
  unfold sizeSub
  rw [Nat.mod_eq_of_lt (by omega)]

/-- The sizes as numbers. -/
theorem sizes : nlmsgHdrlen = 16 ∧ sizeofUevent = 56 ∧ sizeofPath = 64 ∧ nlmEvSize = 72 ∧
    sizeBound = 18446744073709551616 := by
  decide

/-- A path request that is too short for its event: the size of the payload wraps. -/
theorem allocSize_short (hlow : nlmsgHdrlen ≤ nlmsgLen nlmEv) (hshort : nlmsgLen nlmEv < nlmEvSize) :
    allocSize nlmEv = nlmsgLen nlmEv := by
  have hsizes := sizes
  unfold allocSize
  by_cases htype : evType nlmEv = iscsiKeventPathReq
  · have hev : sizeSub (nlmsgLen nlmEv) nlmsgHdrlen = nlmsgLen nlmEv - nlmsgHdrlen :=
      sizeSub_of_le hlow (by omega)
    have hwrap : sizeSub (nlmsgLen nlmEv - nlmsgHdrlen) sizeofUevent =
        nlmsgLen nlmEv - nlmsgHdrlen + (sizeBound - sizeofUevent) :=
      sizeSub_of_lt (by omega) (by omega)
    dsimp only
    rw [if_pos htype, hev, hwrap, if_neg (by omega)]
  · rw [if_neg htype]

theorem payloadSize_eq (hlow : nlmEvSize ≤ len) (hlen : len < sizeBound) :
    sizeSub (sizeSub len nlmsgHdrlen) sizeofUevent = len - nlmEvSize := by
  have hsizes := sizes
  have hev : sizeSub len nlmsgHdrlen = len - nlmsgHdrlen := sizeSub_of_le (by omega) hlen
  rw [hev, sizeSub_of_le (by omega) (by omega)]
  omega

/-- A path request with a part of its path: what is missing is taken away once more. -/
theorem allocSize_partial (htype : evType nlmEv = iscsiKeventPathReq)
    (hlow : nlmEvSize ≤ nlmsgLen nlmEv) (hpart : nlmsgLen nlmEv < nlmEvSize + sizeofPath) :
    allocSize nlmEv + (nlmEvSize + sizeofPath - nlmsgLen nlmEv) = nlmsgLen nlmEv := by
  have hsizes := sizes
  have hpayload := payloadSize_eq hlow (by omega)
  have hwrap : sizeSub (nlmsgLen nlmEv - nlmEvSize) sizeofPath =
      nlmsgLen nlmEv - nlmEvSize + (sizeBound - sizeofPath) :=
    sizeSub_of_lt (by omega) (by omega)
  unfold allocSize
  dsimp only
  rw [if_pos htype, hpayload, if_pos (by omega), hwrap, sizeAdd]
  have hsum : nlmsgLen nlmEv + (nlmsgLen nlmEv - nlmEvSize + (sizeBound - sizeofPath)) =
      nlmsgLen nlmEv + (nlmsgLen nlmEv - nlmEvSize) - sizeofPath + sizeBound := by
    omega
  rw [hsum, Nat.add_mod_right, Nat.mod_eq_of_lt (by omega)]
  omega

theorem allocSize_full (hlen : nlmsgLen nlmEv < 2 ^ 31)
    (hfull : nlmEvSize + sizeofPath ≤ nlmsgLen nlmEv) : allocSize nlmEv = nlmsgLen nlmEv := by
  have hsizes := sizes
  unfold allocSize
  by_cases htype : evType nlmEv = iscsiKeventPathReq
  · have hlow : nlmEvSize ≤ nlmsgLen nlmEv := by omega
    have hpayload := payloadSize_eq hlow (by omega)
    dsimp only
    rw [if_pos htype, hpayload, if_neg (by omega)]
  · rw [if_neg htype]

/-! ## The message -/

/-- What a message that is whole looks like behind the first read. -/
theorem nlmsgLen_peek (stack : List UInt8) (hwhole : Whole msg) :
    nlmsgLen (peek stack msg) = nlmsgLen msg := by
  have hsizes := sizes
  have hheader := hwhole.1
  exact field_peek (by omega) (by omega)

theorem evType_peek (stack : List UInt8) (hwhole : Whole msg)
    (hlen : nlmsgHdrlen + 4 ≤ nlmsgLen msg) : evType (peek stack msg) = evType msg := by
  have hsizes := sizes
  have hreached := hwhole.2
  exact field_peek (by omega) (by omega)

theorem evType_data {p : Pulled} (hwhole : Whole msg)
    (hreceived : p.received = msg.take (nlmsgLen msg)) (hlen : nlmsgHdrlen + 4 ≤ nlmsgLen msg) :
    evType p.data = evType msg := by
  have hreached := hwhole.2
  unfold evType Pulled.data
  rw [hreceived, field_append, field_take hlen]
  rw [length_take]
  omega

/-- What a buffer that is returned says about the message. -/
theorem pullFromNl_ok {malloc : Nat → Bool} {stack : List UInt8} {p : Pulled} (hwhole : Whole msg)
    (hpull : pullFromNl malloc stack msg = .ok p) :
    nlmsgHdrlen ≤ nlmsgLen msg ∧ nlmsgLen msg < 2 ^ 31 ∧ p.size = allocSize (peek stack msg) ∧
      p.received = msg.take (nlmsgLen msg) := by
  unfold pullFromNl at hpull
  dsimp only at hpull
  rw [nlmsgLen_peek stack hwhole] at hpull
  split at hpull
  · cases hpull
  · split at hpull
    · cases hpull
    · split at hpull
      · cases hpull
      · split at hpull
        · cases hpull
        · rename_i hlow _ hhigh
          cases hpull
          exact ⟨not_lt.mp hlow, not_le.mp hhigh, rfl, rfl⟩

/-- Which of the fields are read. -/
theorem forall_reads_iff (p : Pulled) :
    (∀ r ∈ p.reads, r.1 + r.2 ≤ p.size) ↔
      20 ≤ p.size ∧ (evType p.data = iscsiKeventIfDown → 60 ≤ p.size) ∧
        (evType p.data = iscsiKeventPathReq → 130 ≤ p.size) := by
  have hsizes := sizes
  have hne : iscsiKeventIfDown ≠ iscsiKeventPathReq := by decide
  simp only [Pulled.reads, nicNlOpenReads, ctldevHandleReads, uevent, path]
  by_cases hdown : evType p.data = iscsiKeventIfDown
  · simp only [hdown, hne, true_or, if_true, if_false, append_nil, forall_mem_cons,
      not_mem_nil, false_imp_iff, implies_true, true_imp_iff, and_true]
    omega
  · by_cases hpath : evType p.data = iscsiKeventPathReq
    · simp only [hpath, hne.symm, or_true, if_true, cons_append, nil_append,
        forall_mem_cons, not_mem_nil, false_imp_iff, implies_true, true_imp_iff, and_true,
        true_and]
      omega
    · simp only [hdown, hpath, or_self, if_false, append_nil, forall_mem_cons,
        not_mem_nil, false_imp_iff, implies_true, and_true]
      omega

/-- A message fits exactly if it has the type of its event, the host number where that is
read, and the whole path where it is a path request. -/
theorem pulled_fits_iff {malloc : Nat → Bool} {stack msg : List UInt8} {p : Pulled}
    (hwhole : Whole msg) (hpull : pullFromNl malloc stack msg = .ok p) :
    p.Fits ↔ 20 ≤ nlmsgLen msg ∧ (evType msg = iscsiKeventIfDown → 60 ≤ nlmsgLen msg) ∧
      (evType msg = iscsiKeventPathReq → 136 ≤ nlmsgLen msg) := by
  have hsizes := sizes
  have hlen := nlmsgLen_peek stack hwhole
  obtain ⟨hlow, hhigh, hsize, hreceived⟩ := pullFromNl_ok hwhole hpull
  have hstored : p.received.length = nlmsgLen msg := by
    rw [hreceived, length_take]
    exact Nat.min_eq_left hwhole.2
  unfold Pulled.Fits
  rw [forall_reads_iff, hstored]
  by_cases hevent : nlmsgHdrlen + 4 ≤ nlmsgLen msg
  · rw [evType_data hwhole hreceived hevent]
    have htype := evType_peek stack hwhole hevent
    by_cases hpath : evType msg = iscsiKeventPathReq
    · rw [hpath] at htype ⊢
      have hdown : iscsiKeventPathReq ≠ iscsiKeventIfDown := by decide
      simp only [hdown, false_imp_iff, true_imp_iff, true_and]
      by_cases hshort : nlmsgLen msg < nlmEvSize
      · have halloc := allocSize_short (hlen.symm ▸ hlow) (hlen.symm ▸ hshort)
        omega
      · by_cases hpart : nlmsgLen msg < nlmEvSize + sizeofPath
        · have halloc := allocSize_partial htype (by omega) (by omega)
          omega
        · have halloc := allocSize_full (hlen.symm ▸ hhigh) (by omega)
          omega
    · have halloc := allocSize_other (htype.symm ▸ hpath)
      simp only [hpath, false_imp_iff, and_true]
      omega
  · have halloc := allocSize_short (hlen.symm ▸ hlow) (by omega)
    exact iff_of_false (by omega) (by omega)

/-- A message of this length and type, filled up with zeros. -/
def message (len type size : Nat) : List UInt8 :=
  ByteMemory.toBytes 4 len ++ List.replicate 12 0 ++ ByteMemory.toBytes 4 type ++
    List.replicate (size - 20) 0

/-- A path request as the kernel sends it. -/
theorem pulled_fits_pathReq :
    Pulled.Fits ⟨136, message 136 iscsiKeventPathReq 136⟩ := by
  have hpull : pullFromNl (fun _ => true) [] (message 136 iscsiKeventPathReq 136) =
      .ok ⟨136, message 136 iscsiKeventPathReq 136⟩ := by
    decide +kernel
  refine (pulled_fits_iff ⟨by decide +kernel, by decide +kernel⟩ hpull).mpr ⟨?_, ?_, ?_⟩
  · decide +kernel
  · decide +kernel
  · decide +kernel

/-- A path request without the last eight bytes of its path is stored into a buffer that
is eight bytes too short for it; an event without a body is read behind the buffer. -/
theorem pulled_too_small :
    pullFromNl (fun _ => true) [] (message 128 iscsiKeventPathReq 128) =
        .ok ⟨120, message 128 iscsiKeventPathReq 128⟩ ∧
      ¬ Pulled.Fits ⟨120, message 128 iscsiKeventPathReq 128⟩ ∧
      pullFromNl (fun _ => true) [] (message 20 iscsiKeventIfDown 20) =
        .ok ⟨20, message 20 iscsiKeventIfDown 20⟩ ∧
      ¬ Pulled.Fits ⟨20, message 20 iscsiKeventIfDown 20⟩ := by
  refine ⟨by decide +kernel, ?_, by decide +kernel, ?_⟩
  · rintro ⟨hstored, -⟩
    exact absurd hstored (by decide +kernel)
  · rintro ⟨-, hreads⟩
    exact absurd (hreads (56, 4) (by decide +kernel)) (by decide)

end NicNetlink
