import OpenIscsi.AuthClient

/-!
# The exported operations of the CHAP client

Each operation checks the signature and the phase before it does anything; a
call out of turn puts the client into the error phase. `configured` is the
client after `acl_init` and any list of `acl_set_*` calls.
-/

namespace AuthApi

open CString AuthText AuthKeys AuthClient

def outOfTurn (c : IscsiAcl) : IscsiAcl × AuthStatus := ({ c with phase := .error }, .error)

def aclRecvBegin (c : IscsiAcl) : IscsiAcl × AuthStatus :=
  if c.signature ≠ aclSignature then (c, .error)
  else if c.phase = .error then (c, .error)
  else if c.phase = .done then outOfTurn c
  else if c.recvInProgressFlag then outOfTurn c
  else
    let c := { c with recvInProgressFlag := true }
    let c := if c.phase = .configure then aclNextPhase c else c
    ({ c with
        transitBitSentFlag := c.sendKeyBlock.transitBit
        recvKeyBlock := aclInitKeyBlk
        sendKeyBlock := aclInitKeyBlk }, .noError)

def aclRecvTransitBit (c : IscsiAcl) (value : Bool) : IscsiAcl × AuthStatus :=
  if c.signature ≠ aclSignature then (c, .error)
  else if c.phase ≠ .negotiate ∧ c.phase ≠ .authenticate then outOfTurn c
  else ({ c with recvKeyBlock := { c.recvKeyBlock with transitBit := value } }, .noError)

def aclRecvKeyValue (c : IscsiAcl) (keyType : Int) (userKeyVal : Option (List UInt8)) :
    IscsiAcl × AuthStatus :=
  if c.signature ≠ aclSignature then (c, .error)
  else if c.phase ≠ .negotiate ∧ c.phase ≠ .authenticate then outOfTurn c
  else
    match keyTypeOfInt keyType with
    | none => outOfTurn c
    | some .chapChallenge =>
      ({ c with
          recvChapChallenge := aclTextToData userKeyVal authLargeBinaryMaxLen
          recvKeyBlock := aclSetKeyValue c.recvKeyBlock .chapChallenge (some []) }, .noError)
    | some k => ({ c with recvKeyBlock := aclSetKeyValue c.recvKeyBlock k userKeyVal }, .noError)

def recvEndLimits (c : IscsiAcl) : IscsiAcl :=
  if authRecvEndMaxCount < c.recvEndCount then failDone c .recvMsgCountLimit
  else if c.recvKeyBlock.dupSet then failDone c .recvDupSetKeyValue
  else if c.recvKeyBlock.strTooLong then failDone c .recvStrTooLong
  else if c.recvKeyBlock.tooMuchData then failDone c .recvTooMuchData
  else c

def recvEndNegotiate (c : IscsiAcl) : IscsiAcl × Bool :=
  let c := aclChkAuthMethodKey c
  match c.authMethodValidNegRole with
  | .responder =>
    if c.negotiatedAuthMethod = authOptionNotPresent ∧
        (c.authRmt ∨ !c.recvKeyBlock.transitBit) then
      (aclSetAuthMethodKey { c with authMethodValidNegRole := .originator } c.authMethodValidList,
        false)
    else
      let c :=
        if c.negotiatedAuthMethod = authOptionNotPresent then c
        else aclSetAuthMethodKey c [c.negotiatedAuthMethod]
      match c.nodeType with
      | .initiator => (aclNextPhase c, false)
      | .target => (c, true)
  | .originator =>
    if c.negotiatedAuthMethod = authOptionNotPresent then (failDone c .authMethodExpected, false)
    else (aclNextPhase c, false)

/-- The authentication step of `acl_recv_end`: the local side first. -/
def bothSides (D : Digest) (env : Env) (session : Session) (c : IscsiAcl) : IscsiAcl :=
  let c := aclLocalAuth D env c
  if c.localState ≠ .error then aclRmtAuth D env session c else c

/-- A side that failed ends the exchange. -/
def closeFailed (c : IscsiAcl) : IscsiAcl :=
  if c.localState = .error ∨ c.rmtState = .error then
    { c with rmtAuthStatus := .fail, phase := .done }
  else c

def recvEndAuthenticate (D : Digest) (env : Env) (session : Session) (c : IscsiAcl) : IscsiAcl :=
  closeFailed (bothSides D env session c)

/-- The second switch of `acl_recv_end`, then the handshake and the verdict. -/
def recvEndFinish (D : Digest) (env : Env) (session : Session) (c : IscsiAcl)
    (nextPhaseFlag : Bool) : IscsiAcl × AuthStatus :=
  match c.phase with
  | .negotiate => aclRcvEndStatus (aclHandShake (if nextPhaseFlag then aclNextPhase c else c))
  | .authenticate => aclRcvEndStatus (aclHandShake (recvEndAuthenticate D env session c))
  | .done => aclRcvEndStatus (aclHandShake c)
  | _ => outOfTurn c

def aclRecvEnd (D : Digest) (env : Env) (session : Session) (c : IscsiAcl) :
    IscsiAcl × AuthStatus :=
  if c.signature ≠ aclSignature then (c, .error)
  else if c.phase = .error then (c, .error)
  else if !c.recvInProgressFlag then outOfTurn c
  else
    let c := recvEndLimits c
    let c := { c with recvEndCount := c.recvEndCount + 1 }
    match c.phase with
    | .negotiate =>
      let r := recvEndNegotiate c
      recvEndFinish D env session r.1 r.2
    | .authenticate => recvEndFinish D env session c false
    | .done => recvEndFinish D env session c false
    | _ => outOfTurn c

/-- The phases in which something may be sent. -/
def Phase.canSend (p : Phase) : Bool :=
  p == .configure || p == .negotiate || p == .authenticate || p == .done

def aclSendTransitBit (c : IscsiAcl) : IscsiAcl × AuthStatus × Bool :=
  if c.signature ≠ aclSignature then (c, .error, false)
  else if !Phase.canSend c.phase then ({ c with phase := .error }, .error, false)
  else (c, .noError, c.sendKeyBlock.transitBit)

def aclSendKeyVal (c : IscsiAcl) (keyType : Int) (maxLength : Nat) :
    IscsiAcl × AuthStatus × Option (List UInt8) :=
  if c.signature ≠ aclSignature then (c, .error, none)
  else if !Phase.canSend c.phase then ({ c with phase := .error }, .error, none)
  else
    match keyTypeOfInt keyType with
    | none => ({ c with phase := .error }, .error, none)
    | some k =>
      let r := aclGetKeyVal c.sendKeyBlock k
      let c := { c with sendKeyBlock := r.2 }
      match r.1 with
      | none => (c, .noError, none)
      | some s =>
        if k = .chapChallenge then
          let t := aclDataToText c.sendChapChallenge maxLength
          if t.1 then ({ c with phase := .error }, .error, none) else (c, .noError, some t.2)
        else if maxLength ≤ (strlcpy s maxLength).2 then ({ c with phase := .error }, .error, none)
        else (c, .noError, some (strlcpy s maxLength).1)

/-! ## Configuration -/

def aclSetOptionList (c : IscsiAcl) (optList : List Int) (maxCount : Nat) (chkOption : Int → Bool)
    (chkList : List Int → Bool) : Option (List Int) :=
  if c.signature ≠ aclSignature then none
  else if c.phase ≠ .configure ∨ maxCount < optList.length then none
  else if optList.any chkOption then none
  else if ¬ optList.Nodup then none
  else if chkList optList then none
  else some optList

/-- An option list the code refuses, except for a bad signature, ends in the error phase. -/
def refuseOptions (c : IscsiAcl) : IscsiAcl × AuthStatus :=
  if c.signature ≠ aclSignature then (c, .error) else outOfTurn c

def aclChkAuthMthdOptn (val : Int) : Bool := !(val == authOptionNone || val == authMethodChap)

def aclChkAuthMethodList (options : List Int) : Bool :=
  options.length < 2 || options.getLast? != some authOptionNone

def aclChkChapAlgOptn (val : Int) : Bool :=
  !(val == authOptionNone || val == authChapAlgSha3256 || val == authChapAlgSha256 ||
    val == authChapAlgSha1 || val == authChapAlgMd5)

def aclChkChapAlgList (options : List Int) : Bool := options.length < 1

def methodKept (c : IscsiAcl) (o : Int) : Bool :=
  match c.nodeType with
  | .initiator =>
    if c.authRmt then o != authOptionNone
    else if !c.passwdPresent then o == authOptionNone
    else true
  | .target => if c.authRmt then o != authOptionNone else o == authOptionNone

def aclSetAuthMethodValid (c : IscsiAcl) : IscsiAcl :=
  let c := { c with
    authMethodValidList := c.authMethodList.filter (methodKept c)
    sendKeyBlock := aclInitKeyBlk }
  let c := match c.nodeType with
    | .initiator =>
      if c.authRmt then
        { c with
          sendKeyBlock := { c.sendKeyBlock with transitBit := false }
          authMethodValidNegRole := .originator }
      else
        { c with
          sendKeyBlock := { c.sendKeyBlock with transitBit := true }
          authMethodValidNegRole := c.authMethodNegRole }
    | .target =>
      { c with
        sendKeyBlock := { c.sendKeyBlock with transitBit := false }
        authMethodValidNegRole := .responder }
  match c.authMethodValidNegRole with
  | .originator => aclSetAuthMethodKey c c.authMethodValidList
  | .responder => aclSetAuthMethodKey c [authOptionNotPresent]

def aclSetAuthMethodList (c : IscsiAcl) (options : List Int) : IscsiAcl × AuthStatus :=
  match aclSetOptionList c options authMethodMaxCount aclChkAuthMthdOptn aclChkAuthMethodList with
  | none => refuseOptions c
  | some l => (aclSetAuthMethodValid { c with authMethodList := l }, .noError)

def aclSetChapAlgList (c : IscsiAcl) (options : List Int) : IscsiAcl × AuthStatus :=
  match aclSetOptionList c options authChapAlgMaxCount aclChkChapAlgOptn aclChkChapAlgList with
  | none => refuseOptions c
  | some l => ({ c with chapAlgList := l }, .noError)

/-- `acl_init` on buffers of the right sizes. -/
def aclInit (nodeType : NodeType) : IscsiAcl × AuthStatus :=
  let c : IscsiAcl := {
    signature := aclSignature
    nodeType := nodeType
    authRmt := true
    phase := .configure
    negotiatedAuthMethod := authOptionNotPresent
    negotiatedChapAlg := authOptionNotPresent
    authMethodNegRole := match nodeType with
      | .initiator => .originator
      | .target => .responder }
  let r := aclSetAuthMethodList c [authMethodChap, authOptionNone]
  if r.2 ≠ .noError then outOfTurn r.1 else (r.1, .noError)

def aclFinish (c : IscsiAcl) : IscsiAcl × AuthStatus :=
  if c.signature ≠ aclSignature then (c, .error) else ({}, .noError)

def aclSetUserName (c : IscsiAcl) (username : Option (List UInt8)) : IscsiAcl × AuthStatus :=
  if c.signature ≠ aclSignature then (c, .error)
  else if c.phase ≠ .configure then outOfTurn c
  else
    match username, aclChkString username authStrMaxLen with
    | some name, some _ => ({ c with username := (strlcpy name authStrMaxLen).1 }, .noError)
    | _, _ => outOfTurn c

def aclSetPasswd (c : IscsiAcl) (passwd : List UInt8) : IscsiAcl × AuthStatus :=
  if c.signature ≠ aclSignature then (c, .error)
  else if c.phase ≠ .configure ∨ authStrMaxLen < passwd.length then outOfTurn c
  else (aclSetAuthMethodValid { c with passwdData := passwd, passwdPresent := true }, .noError)

def aclSetAuthRmt (c : IscsiAcl) (authRmt : Bool) : IscsiAcl × AuthStatus :=
  if c.signature ≠ aclSignature then (c, .error)
  else if c.phase ≠ .configure then outOfTurn c
  else (aclSetAuthMethodValid { c with authRmt := authRmt }, .noError)

def aclSetIpSec (c : IscsiAcl) (ipSec : Bool) : IscsiAcl × AuthStatus :=
  if c.signature ≠ aclSignature then (c, .error)
  else if c.phase ≠ .configure then outOfTurn c
  else ({ c with ipSec := ipSec }, .noError)

def aclGetDbgStatus (c : IscsiAcl) : IscsiAcl × AuthStatus × DbgStatus :=
  if c.signature ≠ aclSignature then (c, .error, .notSet)
  else if c.phase ≠ .done then ({ c with phase := .error }, .error, .notSet)
  else (c, .noError, c.dbgStatus)

inductive SetCall where
  | userName (name : Option (List UInt8))
  | passwd (data : List UInt8)
  | chapAlgList (options : List Int)
  | authRmt (value : Bool)
  | ipSec (value : Bool)

def SetCall.apply (c : IscsiAcl) : SetCall → IscsiAcl × AuthStatus
  | .userName name => aclSetUserName c name
  | .passwd data => aclSetPasswd c data
  | .chapAlgList options => aclSetChapAlgList c options
  | .authRmt value => aclSetAuthRmt c value
  | .ipSec value => aclSetIpSec c value

def configured (nodeType : NodeType) (calls : List SetCall) : IscsiAcl :=
  calls.foldl (fun c call => (call.apply c).1) (aclInit nodeType).1

end AuthApi
