import OpenIscsi.LoginKeys

/-!
# The login phase

`iscsi_login_begin`, the request builder and the response checker of `login.c`.
Every function returns the session it leaves behind, failed or not. A processed
response also says what its call of `acl_recv_end` returned, if there was one.
-/

namespace Login

open CString AuthText AuthKeys AuthClient AuthApi LoginKeys

def initialLoginStage : Int := -1
def securityNegotiationStage : Int := 0
def opParmsNegotiationStage : Int := 1
def fullFeaturePhase : Int := 3
def defMaxRecvSegLen : Nat := 8192

/-! ## Starting a login -/

def aclInitChapDigests (usable : Int → Bool) (chapAlgs : List Int) : List Int :=
  chapAlgs.filter (fun a => (chapAlgOfCode a).isSome && usable a)

def authenticationCalls (usable : Int → Bool) (s : LoginSession) : List SetCall :=
  (if cstr s.username ≠ [] then [.userName (some s.username)] else []) ++
  (if s.password.headD 0 ≠ 0 then [.passwd s.password] else []) ++
  [.chapAlgList (aclInitChapDigests usable s.chapAlgs), .ipSec true, .authRmt s.bidirectionalAuth]

/-- The calls are made until one fails. -/
def applyCalls : List SetCall → IscsiAcl → Option IscsiAcl
  | [], c => some c
  | call :: calls, c =>
    let r := call.apply c
    if r.2 ≠ .noError then none else applyCalls calls r.1

/-- `check_for_authentication`: on a failure `acl_finish` clears the client. -/
def checkForAuthentication (usable : Int → Bool) (s : LoginSession) : IscsiAcl × LoginStatus :=
  let r := aclInit .initiator
  if r.2 ≠ .noError then (r.1, .failed)
  else
    match applyCalls (authenticationCalls usable s) r.1 with
    | some c => (c, .ok)
    | none => ({}, .failed)

def iscsiLoginBegin (usable : Int → Bool) (s : LoginSession) : LoginSession × LoginStatus :=
  let s := { s with
    expCmdsn := 1
    maxCmdsn := 1
    currentStage := initialLoginStage
    partialResponse := false }
  match s.authClient with
  | none => (s, .ok)
  | some _ =>
    let r := checkForAuthentication usable s
    ({ s with authClient := some r.1 }, r.2)

/-! ## Requests -/

/-- A login request: the parts of its flag byte and its text of `dlength` bytes. -/
structure LoginReq where
  csg : Int
  nsg : Int
  transit : Bool
  text : List UInt8

def iscsiAddText (maxDataLength : Nat) (param value text : List UInt8) : Option (List UInt8) :=
  let pair := cstr param ++ 61 :: cstr value ++ [0]
  if maxDataLength ≤ text.length + pair.length then none else some (text ++ pair)

/-- A sequence of pairs, added until one does not fit. -/
def addTexts (maxDataLength : Nat) : List (List UInt8 × List UInt8) → List UInt8 → Option (List UInt8)
  | [], text => some text
  | (param, value) :: pairs, text =>
    match iscsiAddText maxDataLength param value text with
    | none => none
    | some text => addTexts maxDataLength pairs text

def yesNo (b : Bool) : List UInt8 := if b then ascii "Yes" else ascii "No"

def addParamsNormalSession (s : LoginSession) : List (List UInt8 × List UInt8) :=
  [(ascii "InitialR2T", yesNo s.initialR2tEn), (ascii "ImmediateData", yesNo s.immDataEn),
    (ascii "MaxBurstLength", decimalInt s.maxBurst), (ascii "FirstBurstLength", decimalInt s.firstBurst),
    (ascii "MaxOutstandingR2T", decimalInt s.maxR2t), (ascii "MaxConnections", ascii "1"),
    (ascii "DataPDUInOrder", ascii "Yes"), (ascii "DataSequenceInOrder", ascii "Yes")]

def addParamsTransportSpecific (s : LoginSession) : List (List UInt8 × List UInt8) :=
  if s.type = .discovery ∨ !s.rdma then
    [(ascii "MaxRecvDataSegmentLength", decimalInt s.maxRecvDlength)]
  else
    [(ascii "InitiatorRecvDataSegmentLength", decimalInt s.maxRecvDlength),
      (ascii "TargetRecvDataSegmentLength", decimalInt s.maxXmitDlength),
      (ascii "RDMAExtensions", ascii "Yes")]

def IrrelevantKey.name : IrrelevantKey → List UInt8
  | .maxConnections => ascii "MaxConnections"
  | .initialR2T => ascii "InitialR2T"
  | .immediateData => ascii "ImmediateData"
  | .maxBurstLength => ascii "MaxBurstLength"
  | .firstBurstLength => ascii "FirstBurstLength"
  | .maxOutstandingR2T => ascii "MaxOutstandingR2T"
  | .dataPduInOrder => ascii "DataPDUInOrder"
  | .dataSequenceInOrder => ascii "DataSequenceInOrder"

def checkIrrelevantKeys (s : LoginSession) : List (List UInt8 × List UInt8) :=
  ([.maxConnections, .initialR2T, .immediateData, .maxBurstLength, .firstBurstLength,
    .maxOutstandingR2T, .dataPduInOrder, .dataSequenceInOrder].filter (· ∈ s.irrelevantKeys)).map
    (fun k => (IrrelevantKey.name k, ascii "Irrelevant"))

def DigestMode.text : DigestMode → List UInt8
  | .none => ascii "None"
  | .crc32c => ascii "CRC32C"
  | .crc32cNone => ascii "CRC32C,None"
  | .noneCrc32c => ascii "None,CRC32C"

def fillCrcDigestText (s : LoginSession) : List (List UInt8 × List UInt8) :=
  [(ascii "HeaderDigest", DigestMode.text s.hdrdgstEn), (ascii "DataDigest", DigestMode.text s.datadgstEn)]

/-- The offer of the operational stage, made when no response was partial. -/
def opParamsOffer (s : LoginSession) : List (List UInt8 × List UInt8) :=
  (if s.type = .normal ∧ s.rdma then [] else fillCrcDigestText s) ++
  [(ascii "DefaultTime2Wait", decimalInt s.defTime2wait),
    (ascii "DefaultTime2Retain", decimalInt s.defTime2retain), (ascii "IFMarker", ascii "No"),
    (ascii "OFMarker", ascii "No"), (ascii "ErrorRecoveryLevel", ascii "0")] ++
  (if s.type = .normal then addParamsNormalSession s ++ addParamsTransportSpecific s
  else [(ascii "MaxRecvDataSegmentLength", decimalInt s.maxRecvDlength)])

def fillOpParamsText (maxDataLength : Nat) (s : LoginSession) (text : List UInt8) :
    LoginSession × Option (List UInt8) :=
  let s := { s with currentStage := opParmsNegotiationStage, nextStage := fullFeaturePhase }
  let pairs :=
    if !s.partialResponse then opParamsOffer s
    else checkIrrelevantKeys s ++ (if s.type = .normal ∧ s.rdma then fillCrcDigestText s else [])
  (s, addTexts maxDataLength pairs text)

/-- `enum_auth_keys`: a key the client wants to send is put behind the text. The
room left for its value is computed in `unsigned int`. -/
def enumAuthKeys (maxDataLength : Nat) (r : IscsiAcl × List UInt8) (k : KeyType) :
    IscsiAcl × List UInt8 :=
  let key := aclGetKeyName k
  let maxLength := (((maxDataLength : Int) - (r.2.length + key.length + 1)) % 2 ^ 32).toNat
  let sent := aclSendKeyVal r.1 k.code maxLength
  match sent.2 with
  | (.noError, some value) => (sent.1, r.2 ++ key ++ 61 :: cstr value ++ [0])
  | _ => (sent.1, r.2)

def securityNextStage (s : LoginSession) (transit : Bool) : Int :=
  if transit then
    match s.type with
    | .discovery =>
      if s.hdrdgstEn ≠ .none ∨ s.datadgstEn ≠ .none ∨ s.maxRecvDlength ≠ defMaxRecvSegLen then
        opParmsNegotiationStage
      else fullFeaturePhase
    | .normal => opParmsNegotiationStage
  else securityNegotiationStage

def fillSecurityParamsText (maxDataLength : Nat) (s : LoginSession) (client : IscsiAcl)
    (text : List UInt8) : LoginSession × Option (Bool × List UInt8) :=
  let r := aclSendTransitBit client
  if r.2.1 ≠ .noError then ({ s with authClient := some r.1 }, none)
  else
    let filled := keyTypes.foldl (enumAuthKeys maxDataLength) (r.1, text)
    ({ s with nextStage := securityNextStage s r.2.2, authClient := some filled.1 },
      some (r.2.2, filled.2))

def firstRequest (maxDataLength : Nat) (s : LoginSession) : LoginSession × Option (List UInt8) :=
  if cstr s.initiatorName = [] then (s, none)
  else
    let pairs := [(ascii "InitiatorName", s.initiatorName)] ++
      (if cstr s.initiatorAlias ≠ [] then [(ascii "InitiatorAlias", s.initiatorAlias)] else []) ++
      (if cstr s.targetName ≠ [] ∧ s.type = .normal then [(ascii "TargetName", s.targetName)] else []) ++
      [(ascii "SessionType", if s.type = .discovery then ascii "Discovery" else ascii "Normal")]
    match addTexts maxDataLength pairs [] with
    | none => (s, none)
    | some text =>
      let stage := if s.authClient.isSome then securityNegotiationStage else opParmsNegotiationStage
      ({ s with currentStage := stage, nextStage := stage }, some text)

def stageRequest (maxDataLength : Nat) (s : LoginSession) (text : List UInt8) :
    LoginSession × Option LoginReq :=
  if s.currentStage = opParmsNegotiationStage then
    let r := fillOpParamsText maxDataLength s text
    (r.1, r.2.map fun text => ⟨r.1.currentStage, r.1.nextStage, true, text⟩)
  else if s.currentStage = securityNegotiationStage then
    match s.authClient with
    | none => (s, none)
    | some client =>
      let r := fillSecurityParamsText maxDataLength s client text
      (r.1, r.2.map fun (transit, text) =>
        ⟨r.1.currentStage, if transit then r.1.nextStage else r.1.currentStage, transit, text⟩)
  else (s, none)

def iscsiMakeLoginPdu (maxDataLength : Nat) (s : LoginSession) : LoginSession × Option LoginReq :=
  if s.currentStage = initialLoginStage then
    let r := firstRequest maxDataLength s
    match r.2 with
    | none => (r.1, none)
    | some text => stageRequest maxDataLength r.1 text
  else stageRequest maxDataLength s []

/-! ## Responses -/

/-- A login response with the `dlength + 1` bytes of text that are scanned. -/
structure LoginRsp where
  flags : UInt8
  statusClass : UInt8 := 0
  activeVersion : UInt8 := 0
  tsih : Nat := 0
  expCmdsn : Nat := 0
  maxCmdsn : Nat := 0
  statsn : Nat := 0
  text : List UInt8

def LoginRsp.transit (r : LoginRsp) : Bool := r.flags &&& 0x80 != 0
def LoginRsp.currentStage (r : LoginRsp) : Int := ((r.flags &&& 0x0c) >>> 2).toNat
def LoginRsp.nextStage (r : LoginRsp) : Int := (r.flags &&& 0x03).toNat

structure Processed where
  session : LoginSession
  status : LoginStatus
  recvEnd : Option AuthStatus := none

/-- The checks made on a response of class success. -/
def rspCheck (s : LoginSession) (r : LoginRsp) : LoginStatus :=
  if r.statusClass = 0 then
    if r.activeVersion ≠ 0 then .versionMismatch
    else if r.currentStage ≠ s.currentStage then .invalidPdu
    else if r.transit ∧ r.nextStage ≤ s.currentStage then .invalidPdu
    else .ok
  else .ok

def rspBegin (s : LoginSession) (r : LoginRsp) : LoginSession × LoginStatus :=
  if s.currentStage = securityNegotiationStage then
    match s.authClient with
    | none => (s, .failed)
    | some client =>
      let b := aclRecvBegin client
      if b.2 ≠ .noError then ({ s with authClient := some b.1 }, .failed)
      else
        let t := aclRecvTransitBit b.1 r.transit
        ({ s with authClient := some t.1 }, if t.2 ≠ .noError then .failed else .ok)
  else (s, .ok)

def stageKeys (env : RspEnv) (s : LoginSession) (text : List UInt8) :
    LoginSession × Except LoginStatus (List UInt8) :=
  if s.currentStage = securityNegotiationStage then
    match s.authClient with
    | none => (s, .error .failed)
    | some client => getSecurityTextKeys env s client text
  else if s.currentStage = opParmsNegotiationStage then getOpParamsTextKeys env s text
  else (s, .error .failed)

/-- The scan of the text. Each round takes at least one byte, so the length of
the text bounds the rounds. -/
def scanText (env : RspEnv) : Nat → LoginSession → List UInt8 → LoginSession × LoginStatus
  | 0, s, _ => (s, .ok)
  | fuel + 1, s, text =>
    match text.dropWhile (fun b => b == 0) with
    | [] => (s, .ok)
    | b :: rest =>
      match stageKeys env s (b :: rest) with
      | (s, .error e) => (s, e)
      | (s, .ok text) => scanText env fuel s text

def checkSecurityStageStatus (D : Digest) (env : RspEnv) (s : LoginSession) (client : IscsiAcl) :
    Processed :=
  let r := aclRecvEnd D env.crypto s.credentials client
  if r.2 = .cont ∨ r.2 = .pass then ⟨{ s with authClient := some r.1 }, .ok, some r.2⟩
  else ⟨{ s with authClient := some (aclGetDbgStatus r.1).1 }, .authenticationFailed, some r.2⟩

def rspVerdict (D : Digest) (env : RspEnv) (s : LoginSession) : Processed :=
  if s.currentStage = securityNegotiationStage then
    match s.authClient with
    | none => ⟨s, .authenticationFailed, some .error⟩
    | some client => checkSecurityStageStatus D env s client
  else ⟨s, .ok, none⟩

def rspRecord (s : LoginSession) (r : LoginRsp) : LoginSession :=
  let s := { s with
    tsih := r.tsih
    expCmdsn := r.expCmdsn
    maxCmdsn := r.maxCmdsn
    expStatsn := if r.statusClass = 0 then (r.statsn + 1) % 2 ^ 32 else s.expStatsn }
  if r.transit then
    { s with partialResponse := false, currentStage := r.nextStage, irrelevantKeys := [] }
  else { s with partialResponse := true }

def iscsiProcessLoginResponse (D : Digest) (env : RspEnv) (maxDataLength : Nat) (s : LoginSession)
    (r : LoginRsp) : Processed :=
  if maxDataLength ≤ r.text.length then ⟨s, .failed, none⟩
  else if rspCheck s r ≠ .ok then ⟨s, rspCheck s r, none⟩
  else
    let b := rspBegin s r
    if b.2 ≠ .ok then ⟨b.1, b.2, none⟩
    else
      let k := scanText env (r.text.length + 1) b.1 r.text
      if k.2 ≠ .ok then ⟨k.1, k.2, none⟩
      else
        let v := rspVerdict D env k.1
        if v.status ≠ .ok then v else { v with session := rspRecord v.session r }

end Login
