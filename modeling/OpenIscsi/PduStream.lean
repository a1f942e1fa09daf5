import OpenIscsi.Lib.ByteStream

/-!
# PDUs on a socket

`iscsi_io_send_pdu` and `iscsi_io_recv_pdu` of `io.c` over a TCP socket. Both
move a PDU in several retry loops: header, then data and padding together when
sending, header, data and padding one after the other when receiving. What each
call on the socket does is a list of events; a timeout is an event that fails.
-/

namespace PduStream

open ByteStream List

def sizeofHdr : Nat := 48
def iscsiPadLen : Nat := 4

def hlength (hdr : List UInt8) : Nat := (hdr.getD 4 0).toNat

def dlength (hdr : List UInt8) : Nat :=
  (hdr.getD 5 0).toNat * 65536 + (hdr.getD 6 0).toNat * 256 + (hdr.getD 7 0).toNat

/-- Padding of a length to a multiple of four. -/
def padBytes (length : Nat) : Nat :=
  if length % iscsiPadLen = 0 then 0 else iscsiPadLen - length % iscsiPadLen

/-! ## Sending -/

/-- One write of data and padding: what was left to send and what was taken. -/
structure Write where
  remaining : Nat
  taken : Nat
  deriving DecidableEq, Repr

/-- The outcome of sending: return value, what the socket got, the writes of
data and padding in order, and the events left. -/
structure Sending where
  ret : Bool
  sent : List UInt8
  writes : List Write
  events : List Event
  deriving DecidableEq, Repr

/-- The second loop of `iscsi_io_send_pdu`: what is left of the data and the
whole padding are offered, until `remaining` is used up. -/
def sendData (pad : List UInt8) :
    List Event → List UInt8 → Nat → List UInt8 → List Write → Option Sending
  | events, _, 0, sent, writes => some ⟨true, sent, writes, events⟩
  | [], _, _ + 1, _, _ => none
  | .again :: events, data, remaining + 1, sent, writes =>
    sendData pad events data (remaining + 1) sent writes
  | .broken :: events, _, _ + 1, sent, writes => some ⟨false, sent, writes, events⟩
  | .chunk n :: events, data, remaining + 1, sent, writes =>
    let rc := min (n + 1) (data ++ pad).length
    sendData pad events (data.drop rc) (remaining + 1 - rc) (sent ++ (data ++ pad).take rc)
      (writes ++ [⟨remaining + 1, rc⟩])

/-- `iscsi_io_send_pdu` over a socket. `ahs` is the memory behind the header, of
which `hlength` bytes are sent with it. -/
def iscsiIoSendPdu (hdr ahs data : List UInt8) (events : List Event) : Option Sending :=
  let pad := padBytes (sizeofHdr + hlength hdr + dlength hdr)
  match writeLoop events (hdr ++ ahs.take (hlength hdr)) [] with
  | none => none
  | some h =>
    if !h.complete then some ⟨false, h.sent, [], h.events⟩
    else
      sendData (List.replicate pad 0) h.events (data.take (dlength hdr)) (dlength hdr + pad) h.sent []

/-- A write that stops strictly inside the padding is not followed by one that
takes more than the padding left. `pos` of `d` data and `p` padding bytes are sent. -/
def Contained (d p : Nat) : Nat → List Event → Prop
  | _, [] => True
  | pos, .again :: events => Contained d p pos events
  | _, .broken :: _ => True
  | pos, .chunk n :: events =>
    pos < d + p → (d < pos → pos + (n + 1) ≤ d + p) ∧ Contained d p (pos + (n + 1)) events

theorem Contained.of_sent {d p : Nat} (pos : Nat) (events : List Event) (h : d + p ≤ pos) :
    Contained d p pos events := by
  induction events with
  | nil => trivial
  | cons e events ih =>
    cases e with
    | chunk n => exact fun hlt => absurd hlt (Nat.not_lt.mpr h)
    | again => exact ih
    | broken => trivial

/-- A write of data and padding, the data left and more zeros: the data and zeros. -/
theorem take_data_padding (data : List UInt8) (p rc k : Nat) (hrc : rc - data.length ≤ p) :
    (data ++ List.replicate p 0).take rc ++ (data.drop rc ++ List.replicate k 0) =
      data ++ List.replicate (rc - data.length + k) 0 := by
  rw [take_append, take_replicate, Nat.min_eq_left hrc, ← replicate_append_replicate]
  cases Nat.le_total rc data.length with
  | inl hle =>
    rw [Nat.sub_eq_zero_of_le hle]
    simp only [replicate_zero, append_nil, nil_append]
    rw [← append_assoc, take_append_drop]
  | inr hge =>
    rw [take_of_length_le hge, drop_of_length_le hge, nil_append, append_assoc]

/-- The data loop sends the data and at least the padding; it sends no more
exactly when the writes are contained. -/
theorem sendData_sent (d p : Nat) (events : List Event) (data : List UInt8) (remaining : Nat)
    (sent : List UInt8) (writes : List Write) (pos : Nat) (hdata : data.length = d - pos)
    (hrem : remaining = d + p - pos) (r : Sending)
    (h : sendData (List.replicate p 0) events data remaining sent writes = some r)
    (hret : r.ret = true) :
    ∃ k, r.sent = sent ++ (data ++ List.replicate k 0) ∧ remaining ≤ data.length + k ∧
      (data.length + k = remaining ↔ Contained d p pos events) := by
  induction events generalizing data remaining sent writes pos with
  | nil =>
    cases remaining with
    | zero =>
      rw [sendData] at h
      obtain rfl := Option.some.inj h
      have hnil : data = [] := eq_nil_of_length_eq_zero (by omega)
      rw [hnil]
      exact ⟨0, (append_nil _).symm, Nat.le_refl _, iff_of_true rfl trivial⟩
    | succ remaining => exact nomatch h
  | cons e events ih =>
    cases remaining with
    | zero =>
      rw [sendData] at h
      obtain rfl := Option.some.inj h
      have hnil : data = [] := eq_nil_of_length_eq_zero (by omega)
      rw [hnil]
      exact ⟨0, (append_nil _).symm, Nat.le_refl _,
        iff_of_true rfl (Contained.of_sent pos _ (by omega))⟩
    | succ remaining =>
      cases e with
      | broken =>
        rw [sendData] at h
        obtain rfl := Option.some.inj h
        exact nomatch hret
      | again =>
        rw [sendData] at h
        exact ih data (remaining + 1) sent writes pos hdata hrem h
      | chunk n =>
        rw [sendData] at h
        simp only [length_append, length_replicate] at h
        have hlt : pos < d + p := by omega
        by_cases hover : d < pos ∧ d + p < pos + (n + 1)
        · -- the padding is offered whole again, and more of it is taken than is left
          have hnil : data = [] := eq_nil_of_length_eq_zero (by omega)
          have hzero : remaining + 1 - min (n + 1) (data.length + p) = 0 := by
            rw [hnil, length_nil]
            omega
          rw [hzero, sendData] at h
          obtain rfl := Option.some.inj h
          refine ⟨min (n + 1) p, ?_, ?_, ?_⟩
          · rw [hnil, length_nil, Nat.zero_add, nil_append, nil_append,
              take_replicate, Nat.min_eq_left (Nat.min_le_right _ _)]
          · rw [hnil, length_nil]
            omega
          · refine iff_of_false ?_ ?_
            · rw [hnil, length_nil]
              omega
            · intro hc
              have hfit := (hc hlt).1 hover.1
              omega
        · generalize hrc : min (n + 1) (data.length + p) = rc at h
          have hnext : (data.drop rc).length = d - (pos + rc) := by
            rw [length_drop]
            omega
          have hleft : remaining + 1 - rc = d + p - (pos + rc) := by omega
          obtain ⟨k, hsent, hle, hiff⟩ := ih _ _ _ _ (pos + rc) hnext hleft h
          rw [length_drop] at hle hiff
          have hsame : Contained d p (pos + rc) events ↔
              Contained d p pos (.chunk n :: events) := by
            constructor
            · intro hc _
              refine ⟨fun hpos => by omega, ?_⟩
              by_cases hshort : rc = n + 1
              · rw [← hshort]
                exact hc
              · exact Contained.of_sent _ _ (by omega)
            · intro hc
              by_cases hshort : rc = n + 1
              · rw [hshort]
                exact (hc hlt).2
              · exact Contained.of_sent _ _ (by omega)
          refine ⟨rc - data.length + k, ?_, by omega, ?_⟩
          · rw [hsent, append_assoc, take_data_padding data p rc k (by omega)]
          · rw [← hsame, ← hiff]
            omega

/-- The bytes of a PDU as they belong on the wire: the header, with what
`hlength` adds to it, the data and the padding of all that. -/
def image (hdr ahs data : List UInt8) : List UInt8 :=
  hdr ++ ahs.take (hlength hdr) ++
    (data ++ List.replicate (padBytes (sizeofHdr + hlength hdr + dlength hdr)) 0)

/-- Without additional headers the padding is that of the data. -/
theorem padBytes_plain {hdr : List UInt8} (h : hlength hdr = 0) :
    padBytes (sizeofHdr + hlength hdr + dlength hdr) = padBytes (dlength hdr) := by
  have hmod : (sizeofHdr + 0 + dlength hdr) % iscsiPadLen = dlength hdr % iscsiPadLen := by
    unfold sizeofHdr iscsiPadLen
    omega
  unfold padBytes
  rw [h, hmod]

def dataEvents (hdr ahs : List UInt8) (events : List Event) : List Event :=
  afterMoving (hdr ++ ahs.take (hlength hdr)).length events

/-- A successful send has sent the image of the PDU exactly when its writes are contained. -/
theorem iscsiIoSendPdu_image_iff (hdr ahs data : List UInt8) (hdata : data.length = dlength hdr)
    (events : List Event) (r : Sending) (h : iscsiIoSendPdu hdr ahs data events = some r)
    (hret : r.ret = true) :
    r.sent = image hdr ahs data ↔
      Contained (dlength hdr) (padBytes (sizeofHdr + hlength hdr + dlength hdr)) 0
        (dataEvents hdr ahs events) := by
  unfold iscsiIoSendPdu at h
  split at h
  · exact nomatch h
  · rename_i w hw
    split at h
    · obtain rfl := Option.some.inj h
      exact nomatch hret
    · rename_i hc
      have hcomplete : w.complete = true := by simpa using hc
      obtain ⟨hsent, hevents⟩ := writeLoop_spec _ _ _ w hw hcomplete
      rw [← hdata, take_length] at h
      obtain ⟨k, hbytes, hle, hiff⟩ := sendData_sent _ _ _ data _ _ _ 0 rfl rfl r h hret
      unfold dataEvents image
      rw [hevents, hdata] at hiff
      rw [← hiff, hbytes, hsent, nil_append]
      constructor
      · intro heq
        have hlen := congrArg List.length heq
        simp only [length_append, length_replicate] at hlen
        omega
      · intro hk
        have hpad : k = padBytes (sizeofHdr + hlength hdr + dlength hdr) := by omega
        rw [hpad]

/-- When a send over a socket succeeds, the socket got the PDU as it belongs on the
wire, each byte once, exactly when no write that stopped inside the padding was
followed by one that takes more than the padding left; without additional headers
that is the header, the data and the zeros up to a multiple of four. -/
theorem sent_pdu_exact_iff (hdr ahs data : List UInt8) (hdata : data.length = dlength hdr)
    (events : List Event) (r : Sending) (h : iscsiIoSendPdu hdr ahs data events = some r)
    (hret : r.ret = true) :
    (r.sent = image hdr ahs data ↔
      Contained (dlength hdr) (padBytes (sizeofHdr + hlength hdr + dlength hdr)) 0
        (dataEvents hdr ahs events)) ∧
    (hlength hdr = 0 →
      (r.sent = hdr ++ data ++ List.replicate (padBytes (dlength hdr)) 0 ↔
        Contained (dlength hdr) (padBytes (dlength hdr)) 0 (afterMoving hdr.length events))) := by
  have hiff := iscsiIoSendPdu_image_iff hdr ahs data hdata events r h hret
  refine ⟨hiff, fun hzero => ?_⟩
  unfold dataEvents image at hiff
  rw [padBytes_plain hzero, hzero, take_zero, append_nil, ← append_assoc] at hiff
  exact hiff

def oneByteHeader : List UInt8 := List.replicate 7 0 ++ [1] ++ List.replicate 40 0

/-- One byte of data, sent with one short write that ends before the padding. -/
theorem one_byte_sent_exact :
    (iscsiIoSendPdu oneByteHeader [] [65] [.chunk 47, .chunk 0, .chunk 2]).map (·.sent) =
      some (oneByteHeader ++ [65] ++ List.replicate 3 0) := by
  have hrun : iscsiIoSendPdu oneByteHeader [] [65] [.chunk 47, .chunk 0, .chunk 2] =
      some ⟨true, oneByteHeader ++ [65] ++ List.replicate 3 0, [⟨4, 1⟩, ⟨3, 3⟩], []⟩ := by
    decide +kernel
  have hexact := (sent_pdu_exact_iff oneByteHeader [] [65] (by decide) _ _ hrun rfl).2 (by decide)
  rw [hrun]
  have hlength : dlength oneByteHeader = 1 := by decide
  have hleft : afterMoving oneByteHeader.length [.chunk 47, .chunk 0, .chunk 2] =
      [.chunk 0, .chunk 2] := by
    decide
  rw [hlength, hleft] at hexact
  exact congrArg some (hexact.mpr (fun _ => ⟨nofun, fun _ => ⟨nofun, trivial⟩⟩))

/-- A write that takes the data and one byte of padding, and one that takes all it
is offered: five bytes follow the header in place of four. -/
theorem padding_sent_again :
    ∃ r, iscsiIoSendPdu oneByteHeader [] [65] [.chunk 47, .chunk 1, .chunk 2] = some r ∧
      r.ret = true ∧ hlength oneByteHeader = 0 ∧ oneByteHeader.length = sizeofHdr ∧
      dlength oneByteHeader = 1 ∧ r.sent = oneByteHeader ++ [65] ++ List.replicate 4 0 ∧
      r.sent ≠ oneByteHeader ++ [65] ++ List.replicate (padBytes 1) 0 :=
  ⟨⟨true, oneByteHeader ++ [65] ++ List.replicate 4 0, [⟨4, 2⟩, ⟨2, 3⟩], []⟩, by decide +kernel⟩

/-! ## Receiving -/

/-- What a call of `iscsi_io_recv_pdu` leaves: the return value (`none` is
`-EIO`), header and buffer of the caller, and the stream and events left. -/
structure Received where
  rc : Option Nat
  hdr : List UInt8
  data : List UInt8
  stream : List UInt8
  events : List Event
  deriving DecidableEq, Repr

/-- The caller's buffer, cleared first, with these bytes at its start. -/
def buffer (maxDataLength : Nat) (bytes : List UInt8) : List UInt8 :=
  bytes ++ List.replicate (maxDataLength - bytes.length) 0

/-- The data and padding loops of `iscsi_io_recv_pdu`. -/
def recvData (maxDataLength : Nat) (hdr : List UInt8) (events : List Event)
    (stream : List UInt8) : Option Received :=
  match readLoop events (dlength hdr) [] stream with
  | none => none
  | some d =>
    if !d.complete then some ⟨none, hdr, buffer maxDataLength d.got, d.stream, d.events⟩
    else
      match readLoop d.events (padBytes (dlength hdr)) [] d.stream with
      | none => none
      | some p =>
        if !p.complete then some ⟨none, hdr, buffer maxDataLength d.got, p.stream, p.events⟩
        else
          some ⟨some (sizeofHdr + dlength hdr), hdr, buffer maxDataLength d.got, p.stream, p.events⟩

def iscsiIoRecvPdu (maxDataLength : Nat) (events : List Event) (stream : List UInt8) :
    Option Received :=
  match readLoop events sizeofHdr [] stream with
  | none => none
  | some h =>
    if !h.complete then some ⟨none, h.got, buffer maxDataLength [], h.stream, h.events⟩
    else if hlength h.got ≠ 0 then
      some ⟨none, h.got, buffer maxDataLength [], h.stream, h.events⟩
    else if dlength h.got = 0 then
      some ⟨some sizeofHdr, h.got, buffer maxDataLength [], h.stream, h.events⟩
    else if maxDataLength < dlength h.got then
      some ⟨none, h.got, buffer maxDataLength [], h.stream, h.events⟩
    else recvData maxDataLength h.got h.events h.stream

/-- Successive calls, until one fails. -/
def recvPdus (maxDataLength : Nat) : Nat → List Event → List UInt8 → Option (List Received)
  | 0, _, _ => some []
  | count + 1, events, stream =>
    match iscsiIoRecvPdu maxDataLength events stream with
    | none => none
    | some r =>
      if r.rc = none then some [r]
      else (recvPdus maxDataLength count r.events r.stream).map (fun rs => r :: rs)

structure WirePdu where
  header : List UInt8
  data : List UInt8
  pad : List UInt8
  header_length : header.length = sizeofHdr
  no_ahs : hlength header = 0
  dlength_eq : dlength header = data.length
  pad_length : pad.length = padBytes data.length

def WirePdu.bytes (p : WirePdu) : List UInt8 := p.header ++ (p.data ++ p.pad)

variable (p : WirePdu)

theorem WirePdu.bytes_length :
    p.bytes.length = sizeofHdr + dlength p.header + padBytes (dlength p.header) := by
  simp only [WirePdu.bytes, length_append, p.header_length, p.pad_length, p.dlength_eq]
  omega

variable {maxDataLength : Nat}

theorem buffer_length {bytes : List UInt8} (h : bytes.length ≤ maxDataLength) :
    (buffer maxDataLength bytes).length = maxDataLength := by
  simp only [buffer, length_append, length_replicate]
  omega

/-- Everything a call can do: it fails before the data, or goes on to read data and padding. A PDU
without data is one whose data and padding are read at once. -/
theorem iscsiIoRecvPdu_cases {events : List Event} {stream : List UInt8} {r : Received}
    (h : iscsiIoRecvPdu maxDataLength events stream = some r) :
    ∃ hd, readLoop events sizeofHdr [] stream = some hd ∧
      ((r.rc = none ∧ r.data = buffer maxDataLength []) ∨
      (hd.complete = true ∧ hlength hd.got = 0 ∧ dlength hd.got ≤ maxDataLength ∧ r.hdr = hd.got ∧
        ∃ d, readLoop hd.events (dlength hd.got) [] hd.stream = some d ∧
          r.data = buffer maxDataLength d.got ∧
          (r.rc = none ∨ (r.rc = some (sizeofHdr + dlength hd.got) ∧ d.complete = true ∧
            ∃ q, readLoop d.events (padBytes (dlength hd.got)) [] d.stream = some q ∧
              q.complete = true ∧ r.stream = q.stream)))) := by
  unfold iscsiIoRecvPdu at h
  split at h
  · exact nomatch h
  rename_i hd hread
  refine ⟨hd, hread, ?_⟩
  split_ifs at h with hc hahs hzero hfit
  · obtain rfl := Option.some.inj h
    exact .inl ⟨rfl, rfl⟩
  · obtain rfl := Option.some.inj h
    exact .inl ⟨rfl, rfl⟩
  · obtain rfl := Option.some.inj h
    refine .inr ⟨by simpa using hc, not_not.mp hahs, by omega, rfl,
      ⟨true, [], hd.stream, hd.events⟩, ?_, rfl,
      .inr ⟨by rw [hzero, Nat.add_zero], rfl, ⟨true, [], hd.stream, hd.events⟩, ?_, rfl, rfl⟩⟩
    · rw [hzero, readLoop]
    · rw [hzero, show padBytes 0 = 0 from rfl, readLoop]
  · obtain rfl := Option.some.inj h
    exact .inl ⟨rfl, rfl⟩
  · refine .inr ⟨by simpa using hc, not_not.mp hahs, Nat.not_lt.mp hfit, ?_⟩
    unfold recvData at h
    split at h
    · exact nomatch h
    rename_i d hdata
    split_ifs at h with hdc
    · obtain rfl := Option.some.inj h
      exact ⟨rfl, d, hdata, rfl, .inl rfl⟩
    · split at h
      · exact nomatch h
      rename_i q hpad
      split_ifs at h with hqc
      · obtain rfl := Option.some.inj h
        exact ⟨rfl, d, hdata, rfl, .inl rfl⟩
      · obtain rfl := Option.some.inj h
        exact ⟨rfl, d, hdata, rfl,
          .inr ⟨rfl, by simpa using hdc, q, hpad, by simpa using hqc, rfl⟩⟩

/-- No call, whatever the socket delivers, writes outside the buffer. -/
theorem iscsiIoRecvPdu_bounded (maxDataLength : Nat) (events : List Event) (stream : List UInt8)
    (r : Received) (h : iscsiIoRecvPdu maxDataLength events stream = some r) :
    r.data.length = maxDataLength := by
  obtain ⟨hd, -, ⟨-, hdata⟩ | ⟨-, -, hfit, -, d, hread, hdata, -⟩⟩ := iscsiIoRecvPdu_cases h
  · rw [hdata]
    exact buffer_length (Nat.zero_le _)
  · have hgot := (readLoop_spec _ _ _ _ d hread).1
    rw [length_nil] at hgot
    rw [hdata]
    exact buffer_length (by omega)

/-- A successful call has consumed exactly the header it returns, the data and
their padding, and the buffer holds the data and zeros behind it. -/
theorem iscsiIoRecvPdu_consumed (maxDataLength : Nat) (events : List Event) (stream : List UInt8)
    (r : Received) (h : iscsiIoRecvPdu maxDataLength events stream = some r) (n : Nat)
    (hrc : r.rc = some n) :
    n = sizeofHdr + dlength r.hdr ∧ hlength r.hdr = 0 ∧ dlength r.hdr ≤ maxDataLength ∧
      ∃ data pad, stream = r.hdr ++ (data ++ (pad ++ r.stream)) ∧ r.hdr.length = sizeofHdr ∧
        data.length = dlength r.hdr ∧ pad.length = padBytes (dlength r.hdr) ∧
        r.data = buffer maxDataLength data := by
  obtain ⟨hd, hread, ⟨hno, -⟩ | ⟨hc, hahs, hfit, hhdr, d, hdread, hdata,
    hno | ⟨hrc', hdc, q, hqread, hqc, hqstream⟩⟩⟩ := iscsiIoRecvPdu_cases h
  · rw [hno] at hrc
    cases hrc
  · rw [hno] at hrc
    cases hrc
  · obtain ⟨hlen, hgot, hstream⟩ := (readLoop_spec _ _ _ _ hd hread).2 hc
    obtain ⟨hdlen, hdgot, hdstream⟩ := (readLoop_spec _ _ _ _ d hdread).2 hdc
    obtain ⟨hplen, -, hpstream⟩ := (readLoop_spec _ _ _ _ q hqread).2 hqc
    rw [nil_append] at hgot hdgot
    rw [hhdr]
    refine ⟨Option.some.inj (hrc.symm.trans hrc'), hahs, hfit, d.got,
      d.stream.take (padBytes (dlength hd.got)), ?_, ?_, ?_, ?_, hdata⟩
    · rw [hqstream, hpstream, take_append_drop, hdgot, hdstream, take_append_drop, hgot,
        hstream, take_append_drop]
    · rw [hgot, length_take, Nat.min_eq_left hlen]
    · rw [hdgot, length_take, Nat.min_eq_left hdlen]
    · rw [length_take, Nat.min_eq_left hplen]

/-- Additional headers, or more data than the buffer holds: the call fails and
leaves the buffer cleared. -/
theorem iscsiIoRecvPdu_refused (maxDataLength : Nat) (header rest : List UInt8)
    (hlen : header.length = sizeofHdr) (hbad : hlength header ≠ 0 ∨ maxDataLength < dlength header)
    (events : List Event) (r : Received)
    (h : iscsiIoRecvPdu maxDataLength events (header ++ rest) = some r) :
    r.rc = none ∧ r.data = List.replicate maxDataLength 0 := by
  obtain ⟨hd, hread, hno | ⟨hc, hahs, hfit, -⟩⟩ := iscsiIoRecvPdu_cases h
  · exact hno
  · obtain ⟨-, hgot, -⟩ := (readLoop_spec _ _ _ _ hd hread).2 hc
    rw [nil_append, take_left' hlen] at hgot
    rw [hgot] at hahs hfit
    exact absurd hbad (not_or.mpr ⟨not_not.mpr hahs, Nat.not_lt.mpr hfit⟩)

/-- The data and the padding of a PDU are read whole. -/
theorem recvData_pdu (rest : List UInt8) {events : List Event} (hs : Sound events) {r : Received}
    (h : recvData maxDataLength p.header events (p.data ++ (p.pad ++ rest)) = some r) :
    r = ⟨some (sizeofHdr + p.data.length), p.header, buffer maxDataLength p.data, rest, r.events⟩ ∧
      Sound r.events ∧ chunks events ≤ chunks r.events + (p.data.length + p.pad.length) := by
  unfold recvData at h
  rw [p.dlength_eq] at h
  split at h
  · exact nomatch h
  · rename_i d hdata
    obtain ⟨hd, hsound, hcount⟩ := readLoop_append events p.data _ d hs hdata
    rw [hd] at h
    dsimp only at h
    rw [Bool.not_true, if_neg Bool.false_ne_true, ← p.pad_length] at h
    split at h
    · exact nomatch h
    · rename_i q hpad
      obtain ⟨hq, hsound', hcount'⟩ := readLoop_append d.events p.pad rest q hsound hpad
      rw [hq] at h
      dsimp only at h
      rw [Bool.not_true, if_neg Bool.false_ne_true] at h
      obtain rfl := Option.some.inj h
      exact ⟨rfl, hsound', by dsimp only; omega⟩

/-- The stream that starts with a PDU starts with its header. -/
theorem WirePdu.bytes_append (rest : List UInt8) :
    p.bytes ++ rest = p.header ++ (p.data ++ (p.pad ++ rest)) := by
  simp only [WirePdu.bytes, append_assoc]

/-- A call on a stream that starts with a PDU which fits returns this PDU and
consumes exactly its bytes. -/
theorem iscsiIoRecvPdu_pdu (hfit : p.data.length ≤ maxDataLength) (rest : List UInt8)
    {events : List Event} (hs : Sound events) {r : Received}
    (h : iscsiIoRecvPdu maxDataLength events (p.bytes ++ rest) = some r) :
    r = ⟨some (sizeofHdr + p.data.length), p.header, buffer maxDataLength p.data, rest, r.events⟩ ∧
      Sound r.events ∧ chunks events ≤ chunks r.events + p.bytes.length := by
  have htotal := p.bytes_length
  rw [p.dlength_eq, ← p.pad_length] at htotal
  unfold iscsiIoRecvPdu at h
  rw [p.bytes_append, ← p.header_length] at h
  split at h
  · exact nomatch h
  · rename_i hd hread
    obtain ⟨hhd, hsound, hcount⟩ := readLoop_append events p.header _ hd hs hread
    rw [p.header_length] at hcount
    rw [hhd] at h
    dsimp only at h
    rw [Bool.not_true, if_neg Bool.false_ne_true, if_neg (not_not.mpr p.no_ahs)] at h
    split at h
    · rename_i hzero
      have hnil : p.data = [] := eq_nil_of_length_eq_zero (p.dlength_eq.symm.trans hzero)
      have hpad : p.pad = [] := by
        apply eq_nil_of_length_eq_zero
        rw [p.pad_length, hnil]
        rfl
      obtain rfl := Option.some.inj h
      rw [hnil, hpad, p.header_length]
      exact ⟨rfl, hsound, by dsimp only; omega⟩
    · rw [if_neg (by rw [p.dlength_eq]; omega)] at h
      obtain ⟨hr, hsound', hcount'⟩ := recvData_pdu p rest hsound h
      exact ⟨hr, hsound', by omega⟩

/-- With as many calls that deliver something as there are bytes, it does return. -/
theorem iscsiIoRecvPdu_returns (maxDataLength : Nat) (p : WirePdu) (rest : List UInt8)
    {events : List Event} (hs : Sound events) (hn : p.bytes.length ≤ chunks events) :
    ∃ r, iscsiIoRecvPdu maxDataLength events (p.bytes ++ rest) = some r := by
  have htotal := p.bytes_length
  rw [p.dlength_eq, ← p.pad_length] at htotal
  unfold iscsiIoRecvPdu
  rw [p.bytes_append]
  obtain ⟨hd, hread⟩ := readLoop_returns events p.header.length []
    (p.header ++ (p.data ++ (p.pad ++ rest))) (by rw [p.header_length]; omega)
  obtain ⟨hhd, hsound, hcount⟩ := readLoop_append events p.header _ hd hs hread
  rw [p.header_length] at hread hcount
  rw [hread, hhd]
  dsimp only
  rw [Bool.not_true, if_neg Bool.false_ne_true, if_neg (not_not.mpr p.no_ahs)]
  split
  · exact ⟨_, rfl⟩
  · split
    · exact ⟨_, rfl⟩
    · unfold recvData
      obtain ⟨d, hdata⟩ := readLoop_returns hd.events p.data.length [] (p.data ++ (p.pad ++ rest))
        (by omega)
      obtain ⟨hdd, _, hdcount⟩ := readLoop_append hd.events p.data _ d hsound hdata
      obtain ⟨q, hpad⟩ := readLoop_returns d.events p.pad.length [] (p.pad ++ rest) (by omega)
      rw [p.dlength_eq, hdata, hdd]
      dsimp only
      rw [Bool.not_true, if_neg Bool.false_ne_true, ← p.pad_length, hpad]
      dsimp only
      split <;> exact ⟨_, rfl⟩

def returned (maxDataLength : Nat) (p : WirePdu) : Option Nat × List UInt8 × List UInt8 :=
  (some (sizeofHdr + p.data.length), p.header, buffer maxDataLength p.data)

/-- The stream of some PDUs and what follows them. -/
def wire (pdus : List WirePdu) (rest : List UInt8) : List UInt8 :=
  pdus.flatMap WirePdu.bytes ++ rest

theorem recvPdus_wire (pdus : List WirePdu) (hfit : ∀ p ∈ pdus, p.data.length ≤ maxDataLength)
    (rest : List UInt8) (events : List Event) (hs : Sound events) :
    (∀ rs, recvPdus maxDataLength pdus.length events (wire pdus rest) = some rs →
      rs.map (fun r => (r.rc, r.hdr, r.data)) = pdus.map (returned maxDataLength)) ∧
    ((pdus.flatMap WirePdu.bytes).length ≤ chunks events →
      ∃ rs, recvPdus maxDataLength pdus.length events (wire pdus rest) = some rs) := by
  induction pdus generalizing events with
  | nil =>
    constructor
    · intro rs h
      obtain rfl := Option.some.inj h
      rfl
    · exact fun _ => ⟨[], rfl⟩
  | cons p pdus ih =>
    have hp := hfit p mem_cons_self
    have htail := fun q hq => hfit q (mem_cons_of_mem p hq)
    have hwire : wire (p :: pdus) rest = p.bytes ++ wire pdus rest := by
      simp only [wire, flatMap_cons, append_assoc]
    rw [hwire, length_cons]
    constructor
    · intro rs h
      rw [recvPdus] at h
      split at h
      · exact nomatch h
      · rename_i r hr
        obtain ⟨heq, hsound, _⟩ := iscsiIoRecvPdu_pdu p hp _ hs hr
        rw [heq] at h
        simp only [reduceCtorEq, if_false, Option.map_eq_some_iff] at h
        obtain ⟨rs', hrs', rfl⟩ := h
        have hrec := (ih htail r.events hsound).1 rs' hrs'
        rw [map_cons, map_cons, hrec]
        rfl
    · intro hn
      rw [flatMap_cons, length_append] at hn
      obtain ⟨r, hr⟩ := iscsiIoRecvPdu_returns maxDataLength p (wire pdus rest) hs (by omega)
      obtain ⟨heq, hsound, hcount⟩ := iscsiIoRecvPdu_pdu p hp _ hs hr
      obtain ⟨rs, hrs⟩ := (ih htail r.events hsound).2 (by omega)
      rw [recvPdus, hr]
      dsimp only
      rw [heq]
      simp only [reduceCtorEq, if_false]
      rw [hrs]
      exact ⟨_, rfl⟩

/-- However the stream is cut, successive calls return the PDUs in it; a call that
succeeds consumes one PDU and leaves zeros behind its data; one with additional
headers or too much data fails; and no call writes outside the buffer. -/
theorem received_pdus_any_cut (maxDataLength : Nat) :
    (∀ (pdus : List WirePdu) (rest : List UInt8) (events : List Event),
      (∀ p ∈ pdus, p.data.length ≤ maxDataLength) → Sound events →
      (∀ rs, recvPdus maxDataLength pdus.length events (wire pdus rest) = some rs →
        rs.map (fun r => (r.rc, r.hdr, r.data)) = pdus.map (returned maxDataLength)) ∧
      ((pdus.flatMap WirePdu.bytes).length ≤ chunks events →
        ∃ rs, recvPdus maxDataLength pdus.length events (wire pdus rest) = some rs)) ∧
    (∀ (events : List Event) (stream : List UInt8) (r : Received) (n : Nat),
      iscsiIoRecvPdu maxDataLength events stream = some r → r.rc = some n →
      n = sizeofHdr + dlength r.hdr ∧ hlength r.hdr = 0 ∧ dlength r.hdr ≤ maxDataLength ∧
      ∃ data pad, stream = r.hdr ++ (data ++ (pad ++ r.stream)) ∧ r.hdr.length = sizeofHdr ∧
        data.length = dlength r.hdr ∧ pad.length = padBytes (dlength r.hdr) ∧
        r.data = data ++ List.replicate (maxDataLength - data.length) 0) ∧
    (∀ (header rest : List UInt8) (events : List Event) (r : Received),
      header.length = sizeofHdr → hlength header ≠ 0 ∨ maxDataLength < dlength header →
      iscsiIoRecvPdu maxDataLength events (header ++ rest) = some r →
      r.rc = none ∧ r.data = List.replicate maxDataLength 0) ∧
    ∀ (events : List Event) (stream : List UInt8) (r : Received),
      iscsiIoRecvPdu maxDataLength events stream = some r → r.data.length = maxDataLength := by
  refine ⟨?_, ?_, ?_, iscsiIoRecvPdu_bounded maxDataLength⟩
  · intro pdus rest events hfit hs
    exact recvPdus_wire pdus hfit rest events hs
  · intro events stream r n h hrc
    exact iscsiIoRecvPdu_consumed maxDataLength events stream r h n hrc
  · intro header rest events r hlen hbad h
    exact iscsiIoRecvPdu_refused maxDataLength header rest hlen hbad events r h

def oneBytePdu : WirePdu :=
  ⟨oneByteHeader, [65], [0, 0, 0], by decide, by decide, by decide, by decide⟩

/-- It is received whole from short reads of header, data and padding. -/
theorem one_byte_received :
    ∃ rs, recvPdus 4 1 [.chunk 39, .chunk 9, .chunk 0, .chunk 0, .chunk 1, .chunk 0]
        (wire [oneBytePdu] []) = some rs ∧
      rs.map (fun r => (r.rc, r.hdr, r.data)) = [(some 49, oneByteHeader, [65, 0, 0, 0])] := by
  have hrun : ∃ rs, recvPdus 4 1 [.chunk 39, .chunk 9, .chunk 0, .chunk 0, .chunk 1, .chunk 0]
      (wire [oneBytePdu] []) = some rs := by
    refine ⟨[⟨some 49, oneByteHeader, [65, 0, 0, 0], [], [.chunk 0]⟩], ?_⟩
    decide +kernel
  obtain ⟨rs, hrs⟩ := hrun
  have hfit : ∀ p ∈ [oneBytePdu], p.data.length ≤ 4 := by
    intro p hp
    rw [mem_singleton.mp hp]
    decide
  exact ⟨rs, hrs, ((received_pdus_any_cut 4).1 [oneBytePdu] [] _ hfit (by decide)).1 rs hrs⟩

/-! ## Both ends -/

/-- A send of the PDU whose writes are contained has given these bytes to the socket. -/
def Sends (p : WirePdu) (bytes : List UInt8) : Prop :=
  ∃ ahs events r, iscsiIoSendPdu p.header ahs p.data events = some r ∧ r.ret = true ∧
    Contained (dlength p.header) (padBytes (sizeofHdr + hlength p.header + dlength p.header)) 0
      (dataEvents p.header ahs events) ∧ r.sent = bytes

/-- The PDU as `iscsi_io_send_pdu` pads it. -/
def WirePdu.padded : WirePdu :=
  { p with
    pad := List.replicate (padBytes p.data.length) 0
    pad_length := length_replicate }

theorem Sends.bytes {p : WirePdu} {bytes : List UInt8} (h : Sends p bytes) :
    bytes = p.padded.bytes := by
  obtain ⟨ahs, events, r, hrun, hret, hcontained, rfl⟩ := h
  rw [(iscsiIoSendPdu_image_iff _ _ _ p.dlength_eq.symm _ _ hrun hret).mpr hcontained, image,
    padBytes_plain p.no_ahs, p.no_ahs, take_zero, append_nil, p.dlength_eq]
  rfl

end PduStream
