import OpenIscsi.AuthApi

/-!
# Text keys of the login phase

The text of a login response is the `dlength + 1` bytes that are scanned. A
pointer into it is the suffix that starts there, so `value_end` is the suffix
after the value. Addresses are resolved by a function the caller supplies, and
memory for the alias is always there.
-/

namespace LoginKeys

open CString AuthText AuthKeys AuthClient AuthApi

inductive LoginStatus where
  | ok | ioError | failed | versionMismatch | negotiationFailed | authenticationFailed
  | redirectionFailed | invalidPdu | redirect
  deriving DecidableEq, Repr

inductive SessionType where
  | normal | discovery
  deriving DecidableEq, Repr

inductive DigestMode where
  | none | crc32c | crc32cNone | noneCrc32c
  deriving DecidableEq, Repr

inductive IrrelevantKey where
  | maxConnections | initialR2T | immediateData | maxBurstLength | firstBurstLength
  | maxOutstandingR2T | dataPduInOrder | dataSequenceInOrder
  deriving DecidableEq, Repr

/-- The connection and session fields of the login phase. -/
structure LoginSession where
  type : SessionType := .normal
  /-- `None` when the session has no authentication buffers. -/
  authClient : Option IscsiAcl := none
  credentials : Session := ⟨[], []⟩
  username : List UInt8 := []
  password : List UInt8 := []
  chapAlgs : List Int := []
  bidirectionalAuth : Bool := false
  rdma : Bool := false
  confMaxXmitDataSegmentLength : Nat := 0
  initiatorName : List UInt8 := []
  initiatorAlias : List UInt8 := []
  targetName : List UInt8 := []
  targetAlias : Option (List UInt8) := none
  portalGroupTag : Int := 0
  irrelevantKeys : List IrrelevantKey := []
  initialR2tEn : Bool := false
  immDataEn : Bool := false
  maxR2t : Nat := 0
  firstBurst : Nat := 0
  maxBurst : Nat := 0
  pduInorderEn : Bool := false
  dataseqInorderEn : Bool := false
  defTime2wait : Nat := 0
  defTime2retain : Nat := 0
  tsih : Nat := 0
  expCmdsn : Nat := 0
  maxCmdsn : Nat := 0
  currentStage : Int := -1
  nextStage : Int := 0
  partialResponse : Bool := false
  hdrdgstEn : DigestMode := .none
  datadgstEn : DigestMode := .none
  maxRecvDlength : Nat := 0
  maxXmitDlength : Nat := 0
  expStatsn : Nat := 0
  saddr : List UInt8 × List UInt8 := ([], [])

def iscsiFindKeyValue : List UInt8 → List UInt8 → Option (List UInt8 × List UInt8)
  | _ :: _, [] => none
  | p :: param, c :: text =>
    if c = 0 then none else if p = c then iscsiFindKeyValue param text else none
  | [], [] => none
  | [], c :: text =>
    if c = 61 then some (text.takeWhile (fun b => b != 0), text.dropWhile (fun b => b != 0)) else none

/-- What the environment decides while a response is processed. -/
structure RspEnv where
  crypto : Env
  resolveAddress : List UInt8 → List UInt8 → Bool

/-- The portal group tag after the last comma of an address. -/
def splitTag (value : List UInt8) : List UInt8 × Option (List UInt8) :=
  match splitLast 44 value with
  | some (address, tag) => (address, some tag)
  | none => (value, none)

/-- The port after the last colon, or the default port. -/
def splitPort (address : List UInt8) : List UInt8 × List UInt8 :=
  match splitLast 58 address with
  | some (host, port) => (host, port)
  | none => (address, ascii "3260")

/-- An IPv6 host stands in brackets. -/
def addressHost : List UInt8 → Option (List UInt8)
  | 91 :: rest => if 93 ∈ rest then some (rest.takeWhile (fun b => b != 93)) else none
  | address => some address

def iscsiUpdateAddress (env : RspEnv) (s : LoginSession) (value : List UInt8) :
    Option LoginSession :=
  let tagged := splitTag value
  let ported := splitPort tagged.1
  match addressHost ported.1 with
  | none => none
  | some host =>
    if env.resolveAddress host ported.2 then
      some { s with
        saddr := (host, ported.2)
        portalGroupTag := match tagged.2 with
          | some t => atoi t
          | none => s.portalGroupTag }
    else none

/-! ## Keys of the security stage -/

def getAuthKeyType (s : LoginSession) (client : IscsiAcl) (text : List UInt8) :
    LoginSession × Except LoginStatus (List UInt8) :=
  match keyTypes.findSome? (fun k => (iscsiFindKeyValue (aclGetKeyName k) text).map (fun v => (k, v))) with
  | none => (s, .error .negotiationFailed)
  | some (k, value, valueEnd) =>
    let r := aclRecvKeyValue client k.code (some value)
    let s := { s with authClient := some r.1 }
    if r.2 ≠ .noError then (s, .error .negotiationFailed) else (s, .ok valueEnd)

def getSecurityTextKeys (env : RspEnv) (s : LoginSession) (client : IscsiAcl) (text : List UInt8) :
    LoginSession × Except LoginStatus (List UInt8) :=
  match iscsiFindKeyValue (ascii "TargetAlias") text with
  | some (value, valueEnd) => ({ s with targetAlias := some value }, .ok valueEnd)
  | none =>
    match iscsiFindKeyValue (ascii "TargetAddress") text with
    | some (value, valueEnd) =>
      match iscsiUpdateAddress env s value with
      | some s => (s, .ok valueEnd)
      | none => (s, .error .redirectionFailed)
    | none =>
      match iscsiFindKeyValue (ascii "TargetPortalGroupTag") text with
      | some (value, valueEnd) =>
        ({ s with portalGroupTag := toInt32 (strtoul 0 value).1 }, .ok valueEnd)
      | none => getAuthKeyType s client text

/-! ## Keys of the operational stage -/

inductive OpKey where
  | targetAlias | targetAddress | targetPortalGroupTag | initialR2T | immediateData
  | maxRecvDataSegmentLength | firstBurstLength | maxBurstLength | headerDigest | dataDigest
  | defaultTime2Wait | defaultTime2Retain | ofMarker | ofMarkInt | ifMarker | ifMarkInt
  | dataPduInOrder | dataSequenceInOrder | maxOutstandingR2T | maxConnections
  | errorRecoveryLevel | rdmaExtensions | initiatorRecvDataSegmentLength
  | targetRecvDataSegmentLength | ciscoProtocol | ciscoPingTimeout | ciscoSendAsyncText
  deriving DecidableEq, Repr

def opKeys : List OpKey :=
  [.targetAlias, .targetAddress, .targetPortalGroupTag, .initialR2T, .immediateData,
    .maxRecvDataSegmentLength, .firstBurstLength, .maxBurstLength, .headerDigest, .dataDigest,
    .defaultTime2Wait, .defaultTime2Retain, .ofMarker, .ofMarkInt, .ifMarker, .ifMarkInt,
    .dataPduInOrder, .dataSequenceInOrder, .maxOutstandingR2T, .maxConnections,
    .errorRecoveryLevel, .rdmaExtensions, .initiatorRecvDataSegmentLength,
    .targetRecvDataSegmentLength, .ciscoProtocol, .ciscoPingTimeout, .ciscoSendAsyncText]

def OpKey.name : OpKey → List UInt8
  | .targetAlias => ascii "TargetAlias"
  | .targetAddress => ascii "TargetAddress"
  | .targetPortalGroupTag => ascii "TargetPortalGroupTag"
  | .initialR2T => ascii "InitialR2T"
  | .immediateData => ascii "ImmediateData"
  | .maxRecvDataSegmentLength => ascii "MaxRecvDataSegmentLength"
  | .firstBurstLength => ascii "FirstBurstLength"
  | .maxBurstLength => ascii "MaxBurstLength"
  | .headerDigest => ascii "HeaderDigest"
  | .dataDigest => ascii "DataDigest"
  | .defaultTime2Wait => ascii "DefaultTime2Wait"
  | .defaultTime2Retain => ascii "DefaultTime2Retain"
  | .ofMarker => ascii "OFMarker"
  | .ofMarkInt => ascii "OFMarkInt"
  | .ifMarker => ascii "IFMarker"
  | .ifMarkInt => ascii "IFMarkInt"
  | .dataPduInOrder => ascii "DataPDUInOrder"
  | .dataSequenceInOrder => ascii "DataSequenceInOrder"
  | .maxOutstandingR2T => ascii "MaxOutstandingR2T"
  | .maxConnections => ascii "MaxConnections"
  | .errorRecoveryLevel => ascii "ErrorRecoveryLevel"
  | .rdmaExtensions => ascii "RDMAExtensions"
  | .initiatorRecvDataSegmentLength => ascii "InitiatorRecvDataSegmentLength"
  | .targetRecvDataSegmentLength => ascii "TargetRecvDataSegmentLength"
  | .ciscoProtocol => ascii "X-com.cisco.protocol"
  | .ciscoPingTimeout => ascii "X-com.cisco.PingTimeout"
  | .ciscoSendAsyncText => ascii "X-com.cisco.sendAsyncText"

def normalOnly (s : LoginSession) (k : IrrelevantKey) (set : LoginSession → LoginSession) :
    LoginSession :=
  match s.type with
  | .normal => set s
  | .discovery => { s with irrelevantKeys := k :: s.irrelevantKeys }

def digestAnswer (mode : DigestMode) (value : List UInt8) : Option DigestMode :=
  if value = ascii "None" then (if mode ≠ .crc32c then some .none else none)
  else if value = ascii "CRC32C" then (if mode ≠ .none then some .crc32c else none)
  else none

def word (n : Nat) : Nat := n % 2 ^ 32

def applyOpKey (env : RspEnv) (s : LoginSession) (value : List UInt8) :
    OpKey → Except LoginStatus LoginSession
  | .targetAlias => .ok { s with targetAlias := some value }
  | .targetAddress =>
    match iscsiUpdateAddress env s value with
    | some s => .ok s
    | none => .error .redirectionFailed
  | .targetPortalGroupTag => .ok { s with portalGroupTag := toInt32 (strtoul 0 value).1 }
  | .initialR2T =>
    .ok (normalOnly s .initialR2T fun s => { s with initialR2tEn := value == ascii "Yes" })
  | .immediateData =>
    .ok (normalOnly s .immediateData fun s => { s with immDataEn := value == ascii "Yes" })
  | .maxRecvDataSegmentLength =>
    if s.type = .discovery ∨ !s.rdma then
      let tgtMaxXmit := toInt32 (strtoul 0 value).1
      if s.confMaxXmitDataSegmentLength = 0 ∨ tgtMaxXmit < toInt32 s.maxXmitDlength then
        .ok { s with maxXmitDlength := word (strtoul 0 value).1 }
      else .ok s
    else .ok s
  | .firstBurstLength =>
    .ok (normalOnly s .firstBurstLength fun s => { s with firstBurst := word (strtoul 0 value).1 })
  | .maxBurstLength =>
    .ok (normalOnly s .maxBurstLength fun s => { s with maxBurst := word (strtoul 0 value).1 })
  | .headerDigest =>
    match digestAnswer s.hdrdgstEn value with
    | some d => .ok { s with hdrdgstEn := d }
    | none => .error .negotiationFailed
  | .dataDigest =>
    match digestAnswer s.datadgstEn value with
    | some d => .ok { s with datadgstEn := d }
    | none => .error .negotiationFailed
  | .defaultTime2Wait => .ok { s with defTime2wait := word (strtoul 0 value).1 }
  | .defaultTime2Retain => .ok { s with defTime2retain := word (strtoul 0 value).1 }
  | .ofMarker => .ok s
  | .ofMarkInt => .ok s
  | .ifMarker => .ok s
  | .ifMarkInt => .ok s
  | .dataPduInOrder =>
    .ok (normalOnly s .dataPduInOrder fun s => { s with pduInorderEn := value == ascii "Yes" })
  | .dataSequenceInOrder =>
    .ok (normalOnly s .dataSequenceInOrder fun s =>
      { s with dataseqInorderEn := value == ascii "Yes" })
  | .maxOutstandingR2T =>
    .ok (normalOnly s .maxOutstandingR2T fun s => { s with maxR2t := word (strtoul 0 value).1 })
  | .maxConnections =>
    if s.type = .normal ∧ value ≠ ascii "1" then .error .negotiationFailed
    else .ok (normalOnly s .maxConnections id)
  | .errorRecoveryLevel => if value ≠ ascii "0" then .error .negotiationFailed else .ok s
  | .rdmaExtensions =>
    if s.rdma ∧ value ≠ ascii "Yes" then .error .negotiationFailed else .ok s
  | .initiatorRecvDataSegmentLength =>
    if s.rdma then .ok { s with maxRecvDlength := min s.maxRecvDlength (strtoul 0 value).1 } else .ok s
  | .targetRecvDataSegmentLength =>
    if s.rdma then .ok { s with maxXmitDlength := min s.maxXmitDlength (strtoul 0 value).1 } else .ok s
  | .ciscoProtocol =>
    if value = ascii "NotUnderstood" ∨ value = ascii "Reject" ∨ value = ascii "Irrelevant" ∨
        value = ascii "draft20" then .ok s
    else .error .versionMismatch
  | .ciscoPingTimeout => .ok s
  | .ciscoSendAsyncText => .ok s

def getOpParamsTextKeys (env : RspEnv) (s : LoginSession) (text : List UInt8) :
    LoginSession × Except LoginStatus (List UInt8) :=
  match opKeys.findSome? (fun k => (iscsiFindKeyValue k.name text).map (fun v => (k, v))) with
  | none => (s, .error .negotiationFailed)
  | some (k, value, valueEnd) =>
    match applyOpKey env s value k with
    | .ok s => (s, .ok valueEnd)
    | .error e => (s, .error e)

end LoginKeys
