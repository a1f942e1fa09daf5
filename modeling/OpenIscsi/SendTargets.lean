import OpenIscsi.Lib.CString
import OpenIscsi.Lib.Runs

/-!
# SendTargets responses

`local_strings.c` and the functions of `discovery.c` from a received text
response to the list of node records. Pointers into the buffer are offsets from
its start, so the NULs that `add_target_record` writes are writes at an offset.
Sizes are unbounded. The defaults that `idbm_node_setup_from_conf` puts into a
record do not depend on the target and are left out, and so is the count of
targets, which nothing reads.
-/

namespace SendTargets

open CString

/-! ## String buffers -/

structure StrBuffer where
  buffer : List UInt8 := []
  dataLength : Nat := 0
  deriving DecidableEq, Repr

/-- `str_enlarge_data`; the flag says whether `realloc` finds memory, the result
whether the call succeeds. -/
def strEnlargeData (s : StrBuffer) (length : Nat) (realloc : Bool) : StrBuffer × Bool :=
  let s := { s with dataLength := s.dataLength + length }
  if s.buffer.length < s.dataLength then
    if realloc then
      ({ s with
          buffer := s.buffer ++ List.replicate (s.dataLength - s.buffer.length) 0 }, true)
    else (s, false)
  else (s, true)

def strRemoveInitial (s : StrBuffer) (length : Nat) : StrBuffer :=
  if length = 0 then s
  else
    let amount := s.dataLength - length
    let moved := (s.buffer.drop length).take amount ++ s.buffer.drop amount
    { buffer := moved.set amount 0, dataLength := amount }

def strTruncateBuffer (s : StrBuffer) (length : Nat) : StrBuffer :=
  if s.dataLength = 0 then s
  else if length ≤ s.dataLength then
    { buffer := s.buffer.set length 0, dataLength := length }
  else if length ≤ s.buffer.length then
    { buffer := s.buffer.take s.dataLength ++ List.replicate (length - s.dataLength) 0 ++
        s.buffer.drop length
      dataLength := length }
  else s

def copyIn (buf : List UInt8) (offset : Nat) (data : List UInt8) : List UInt8 :=
  buf.take offset ++ data ++ buf.drop (offset + data.length)

/-! ## Pointers into the buffer -/

def byteAt (buf : List UInt8) (i : Nat) : UInt8 := buf.getD i 0

/-- The C string a pointer denotes. -/
def stringAt (buf : List UInt8) (i : Nat) : List UInt8 := cstr (buf.drop i)

/-- `strncmp(text, key, strlen(key)) == 0`. -/
def keyAt (buf : List UInt8) (i : Nat) (key : List UInt8) : Bool := key.isPrefixOf (stringAt buf i)

/-- The loop `while (text < limit && p(*text)) text++`, `n` bytes before its limit. -/
def skip (p : UInt8 → Bool) (buf : List UInt8) : Nat → Nat → Nat
  | 0, text => text
  | n + 1, text => if p (byteAt buf text) then skip p buf n (text + 1) else text

/-- The loop that looks for the last NUL from an offset downwards, and stops at 0. -/
def lastNul (buf : List UInt8) : Nat → Nat
  | 0 => 0
  | n + 1 => if byteAt buf (n + 1) ≠ 0 then lastNul buf n else n + 1

def strrchr (buf : List UInt8) (text : Nat) (c : UInt8) : Option Nat :=
  (splitLast c (stringAt buf text)).map (fun parts => text + parts.1.length)

/-- Ends the string at the last `c`; the pointer is behind it. -/
def cutLast (buf : List UInt8) (text : Nat) (c : UInt8) : List UInt8 × Option Nat :=
  match strrchr buf text c with
  | some p => (buf.set p 0, some (p + 1))
  | none => (buf, none)

/-! ## Node records -/

inductive DiscoveryType where
  | sendtargets | isns | offloadSendtargets | slp | static | fw
  deriving DecidableEq, Repr

structure DiscoveryRec where
  type : DiscoveryType
  address : List UInt8
  port : Int
  deriving DecidableEq, Repr

/-- `node_rec_t`, as far as `add_portal` sets it. -/
structure NodeRec where
  discType : DiscoveryType
  discPort : Int
  discAddress : List UInt8
  name : List UInt8
  tpgt : Int
  port : Int
  address : List UInt8
  deriving DecidableEq, Repr

/-- What the code asks the system: the resolver, and memory for the next record. -/
structure Env where
  resolves : (address : List UInt8) → (port : Option (List UInt8)) → Bool
  calloc : Nat → Bool

def targetNameMaxlen : Nat := 255
def niMaxhost : Nat := 1025
def portalGroupTagUnknown : Int := -1
def iscsiListenPort : Int := 3260

def numberOr (unset : Int) : Option (List UInt8) → Int
  | some text => if text = [] then unset else atoi text
  | none => unset

/-- The record `add_portal` fills in. -/
def portalRec (drec : DiscoveryRec) (targetname address : List UInt8)
    (port tag : Option (List UInt8)) : NodeRec where
  discType := drec.type
  discPort := drec.port
  discAddress := cstr drec.address
  name := (strlcpy targetname targetNameMaxlen).1
  tpgt := numberOr portalGroupTagUnknown tag
  port := numberOr iscsiListenPort port
  address := (strlcpy address niMaxhost).1

def addPortal (env : Env) (drec : DiscoveryRec) (recs : List NodeRec)
    (targetname address : List UInt8) (port tag : Option (List UInt8)) : Option (List NodeRec) :=
  if !env.resolves address port then none
  else if !env.calloc recs.length then none
  else some (recs ++ [portalRec drec targetname address port tag])

/-- `sprintf("%d")`. -/
def printInt (n : Int) : List UInt8 := if n < 0 then 45 :: decimal n.natAbs else decimal n.natAbs

/-- What the functions below hand back: the buffer, the records, and success. -/
structure Outcome where
  buf : List UInt8
  recs : List NodeRec
  ok : Bool
  deriving DecidableEq, Repr

section Processing

variable (env : Env) (drec : DiscoveryRec)

/-- The body of the `TargetAddress=` case of `add_target_record`. -/
def addAddress (buf : List UInt8) (name text : Nat) (recs : List NodeRec) : Outcome :=
  let address := text + 14
  let (buf, tag) := cutLast buf text 44
  let (buf, port) := cutLast buf text 58
  let (buf, address) :=
    if byteAt buf address = 91 then ((cutLast buf text 93).1, address + 1) else (buf, address)
  match addPortal env drec recs (stringAt buf name) (stringAt buf address)
      (port.map (stringAt buf)) (tag.map (stringAt buf)) with
  | some recs => ⟨buf, recs, true⟩
  | none => ⟨buf, recs, false⟩

/-- The loop of `add_target_record` over the strings behind the name. -/
def addAddresses (name limit : Nat) : Nat → List UInt8 → Nat → List NodeRec → Outcome
  | 0, buf, _, recs => ⟨buf, recs, true⟩
  | fuel + 1, buf, text, recs =>
    if text < limit then
      let next := text + (stringAt buf text).length + 1
      if keyAt buf text (ascii "TargetAddress=") then
        let out := addAddress env drec buf name text recs
        if out.ok then addAddresses name limit fuel out.buf next out.recs else out
      else addAddresses name limit fuel buf next recs
    else ⟨buf, recs, true⟩

def addTargetRecord (buf : List UInt8) (name limit : Nat) (recs : List NodeRec) : Outcome :=
  let nul := skip (fun b => b ≠ 0) buf (limit - name) name
  let length := nul - name
  if targetNameMaxlen < length then ⟨buf, recs, false⟩
  else
    let text := name + length
    let text := skip (fun b => b = 0) buf (limit - text) text
    if limit ≤ text then
      if cstr drec.address = [] then ⟨buf, recs, false⟩
      else
        match addPortal env drec recs (stringAt buf name) (cstr drec.address)
            (some (printInt drec.port)) none with
        | some recs => ⟨buf, recs, true⟩
        | none => ⟨buf, recs, false⟩
    else addAddresses env drec name limit (limit - text) buf text recs

/-- The loop of `process_sendtargets_response` when it is left: where the last
target record starts, if there is one. -/
structure Scan where
  out : Outcome
  text : Nat
  record : Option Nat
  deriving DecidableEq, Repr

def endRecord (buf : List UInt8) (text : Nat) (record : Option Nat) (recs : List NodeRec) :
    Outcome :=
  match record with
  | some record => addTargetRecord env drec buf (record + 11) text recs
  | none => ⟨buf, recs, true⟩

/-- The loop of `process_sendtargets_response` over the strings up to `nul`. -/
def findRecords (nul : Nat) : Nat → List UInt8 → Nat → Option Nat → List NodeRec → Scan
  | 0, buf, text, record, recs => ⟨⟨buf, recs, true⟩, text, record⟩
  | fuel + 1, buf, text, record, recs =>
    let text := skip (fun b => b = 0) buf (nul - text) text
    if text = nul then ⟨⟨buf, recs, true⟩, text, record⟩
    else if keyAt buf text (ascii "TargetName=") then
      let out := endRecord env drec buf text record recs
      if out.ok then
        findRecords nul fuel out.buf (skip (fun b => b ≠ 0) out.buf (nul - text) text) (some text)
          out.recs
      else ⟨out, text, record⟩
    else
      findRecords nul fuel buf (skip (fun b => b ≠ 0) buf (nul - text) text) record recs

def processSendtargetsResponse (sendtargets : StrBuffer) (final : Bool) (recs : List NodeRec) :
    StrBuffer × List NodeRec :=
  if sendtargets.dataLength = 0 then (sendtargets, recs)
  else
    let nul := lastNul sendtargets.buffer (sendtargets.dataLength - 1)
    if nul = 0 then (sendtargets, recs)
    else
      let scan := findRecords env drec nul (nul + 1) sendtargets.buffer 0 none recs
      let sendtargets := { sendtargets with buffer := scan.out.buf }
      if scan.out.ok then
        match scan.record with
        | some record =>
          if final then
            let out := addTargetRecord env drec scan.out.buf (record + 11) scan.text scan.out.recs
            (strTruncateBuffer { sendtargets with buffer := out.buf } 0, out.recs)
          else (strRemoveInitial sendtargets record, scan.out.recs)
        | none => (sendtargets, scan.out.recs)
      else (strTruncateBuffer sendtargets 0, scan.out.recs)

/-- What `discovery_sendtargets` keeps between two PDUs. -/
structure Discovery where
  sendtargets : StrBuffer := {}
  recs : List NodeRec := []
  active : Bool := true
  validText : Bool := false
  /-- `DISCOVERY_NEED_RECONNECT` was returned. -/
  needReconnect : Bool := false
  deriving DecidableEq, Repr

def iscsiOpTextRsp : UInt8 := 0x24
def iscsiFlagCmdFinal : UInt8 := 0x80
def iscsiReservedTag : UInt32 := 0xffffffff

/-- A received PDU, with what the system does while it is processed: whether the
buffer can grow, and whether the next text request can be sent. -/
structure Pdu where
  opcode : UInt8 := iscsiOpTextRsp
  flags : UInt8
  ttt : UInt32
  data : List UInt8
  realloc : Bool := true
  iterated : Bool := true
  deriving DecidableEq, Repr

def Pdu.final (pdu : Pdu) : Bool :=
  pdu.flags &&& iscsiFlagCmdFinal ≠ 0 || pdu.ttt = iscsiReservedTag

def processRecvdPdu (d : Discovery) (pdu : Pdu) : Discovery :=
  if pdu.opcode = iscsiOpTextRsp then
    let currDataLength := d.sendtargets.dataLength
    let (sendtargets, enlarged) := strEnlargeData d.sendtargets pdu.data.length pdu.realloc
    let d := { d with sendtargets := sendtargets }
    if enlarged then
      let sendtargets :=
        { sendtargets with buffer := copyIn sendtargets.buffer currDataLength pdu.data }
      let (sendtargets, recs) :=
        processSendtargetsResponse env drec sendtargets pdu.final d.recs
      let d := { d with sendtargets := sendtargets, recs := recs, validText := true }
      if pdu.final then { d with active := false }
      else if pdu.iterated then d
      else { d with needReconnect := true }
    else d
  else { d with needReconnect := true }

end Processing

end SendTargets
