import OpenIscsi.AuthKeys

/-!
# The CHAP client

`struct iscsi_acl` and the operations of `auth.c` on it, for both node types.
Options stay `int`s, since callers pass arbitrary option lists. The digests are
a parameter, and every random or failing library call of one `acl_recv_end` is
an input of that call. `session_handle` is only read inside that call, so the
credentials of the session are an argument as well.
-/

namespace AuthClient

open CString AuthText AuthKeys

inductive NodeType where
  | initiator | target
  deriving DecidableEq, Repr

inductive NegRole where
  | originator | responder
  deriving DecidableEq, Repr

/-- `enum auth_phase`, with the zero that `memset` leaves. -/
inductive Phase where
  | unset | configure | negotiate | authenticate | done | error
  deriving DecidableEq, Repr

inductive LocalState where
  | unset | sendAlg | recvAlg | recvChallenge | done | error
  deriving DecidableEq, Repr

inductive RmtState where
  | unset | sendAlg | sendChallenge | recvRsp | done | error
  deriving DecidableEq, Repr

inductive AuthStatus where
  | noError | error | pass | fail | cont
  deriving DecidableEq, Repr

inductive DbgStatus where
  | notSet | authPass | authRmtFalse | authFail | authMethodBad | chapAlgBad
  | passwdDecryptFailed | passwdTooShortWithNoIpsec | authServerError | authStatusBad
  | authpassNotValid | sendDupSetKeyValue | sendStrTooLong | sendTooMuchData
  | authMethodExpected | chapAlgExpected | chapIdentifierExpected | chapChallengeExpected
  | chapRspExpected | chapUsernameExpected | authMethodNotPresent | authMethodReject
  | authMethodNone | chapAlgReject | chapChallengeReflected | passwdIdentical
  | localPasswdNotSet | chapIdentifierBad | challengeBad | chapRspBad | unexpectedKeyPresent
  | tBitSetIllegal | tBitSetPremature | recvMsgCountLimit | recvDupSetKeyValue
  | recvStrTooLong | recvTooMuchData
  deriving DecidableEq, Repr

def authOptionReject : Int := -2
def authOptionNotPresent : Int := -1
def authOptionNone : Int := 1
def authMethodChap : Int := 2
def authMethodMaxCount : Nat := 2
def authChapAlgMd5 : Int := 5
def authChapAlgSha1 : Int := 6
def authChapAlgSha256 : Int := 7
def authChapAlgSha3256 : Int := 8
def authChapAlgMaxCount : Nat := 5
def authRecvEndMaxCount : Nat := 10
def aclSignature : Nat := 0x5984B2E3

def aclRejectOptionName : List UInt8 := ascii "Reject"
def aclNoneOptionName : List UInt8 := ascii "None"
def aclChapOptionName : List UInt8 := ascii "CHAP"

inductive ChapAlg where
  | md5 | sha1 | sha256 | sha3256
  deriving DecidableEq, Repr

def ChapAlg.rspLen : ChapAlg → Nat
  | .md5 => 16
  | .sha1 => 20
  | .sha256 => 32
  | .sha3256 => 32

def ChapAlg.code : ChapAlg → Int
  | .md5 => authChapAlgMd5
  | .sha1 => authChapAlgSha1
  | .sha256 => authChapAlgSha256
  | .sha3256 => authChapAlgSha3256

/-- The digest selected by the switch of `auth_hash_init`. -/
def chapAlgOfCode (n : Int) : Option ChapAlg :=
  if n = authChapAlgMd5 then some .md5
  else if n = authChapAlgSha1 then some .sha1
  else if n = authChapAlgSha256 then some .sha256
  else if n = authChapAlgSha3256 then some .sha3256
  else none

/-- The message digests of the crypto library, with their output sizes. -/
structure Digest where
  hash : ChapAlg → List UInt8 → List UInt8
  hash_length : ∀ a m, (hash a m).length = a.rspLen

/-- What the crypto library does during one `acl_recv_end`: which digest
initialisations succeed, and what `RAND_bytes` delivers, if anything. -/
structure Env where
  rspInit : Bool := true
  reflectInit : Bool := true
  verifyInit : Bool := true
  randId : Option UInt8
  randChallenge : Option (Nat → UInt8)

/-- The incoming credentials of the session. `passwordIn` is the first
`password_in_length` bytes of the buffer. -/
structure Session where
  usernameIn : List UInt8
  passwordIn : List UInt8

/-- `struct iscsi_acl`; the field defaults are what `memset` leaves. -/
structure IscsiAcl where
  signature : Nat := 0
  nodeType : NodeType := .initiator
  authMethodList : List Int := []
  authMethodNegRole : NegRole := .responder
  chapAlgList : List Int := []
  authRmt : Bool := false
  username : List UInt8 := []
  passwdPresent : Bool := false
  passwdData : List UInt8 := []
  chapChallengeLen : Nat := 0
  ipSec : Bool := false
  authMethodValidList : List Int := []
  authMethodValidNegRole : NegRole := .responder
  recvInProgressFlag : Bool := false
  recvEndCount : Nat := 0
  phase : Phase := .unset
  localState : LocalState := .unset
  rmtState : RmtState := .unset
  rmtAuthStatus : AuthStatus := .noError
  dbgStatus : DbgStatus := .notSet
  negotiatedAuthMethod : Int := 0
  negotiatedChapAlg : Int := 0
  authRspFlag : Bool := false
  authServerErrorFlag : Bool := false
  transitBitSentFlag : Bool := false
  sendChapIdentifier : UInt8 := 0
  sendChapChallenge : List UInt8 := []
  chapUsername : List UInt8 := []
  /-- The decoded challenge, or `none` when `recv_chap_challenge_status` is set. -/
  recvChapChallenge : Option (List UInt8) := some []
  scratchKeyValue : List UInt8 := []
  recvKeyBlock : KeyBlock := aclInitKeyBlk
  sendKeyBlock : KeyBlock := aclInitKeyBlk

/-! ## Option keys -/

def aclAuthmethodOptnToText (value : Int) : Option (List UInt8) :=
  if value = authOptionReject then some aclRejectOptionName
  else if value = authOptionNone then some aclNoneOptionName
  else if value = authMethodChap then some aclChapOptionName
  else none

/-- The scan of a comma separated list, one item a round; `fuel` bounds the
rounds by the length of the text. -/
def tokensLoop : Nat → List UInt8 → List (List UInt8)
  | 0, _ => []
  | _ + 1, [] => []
  | fuel + 1, s =>
    let item := s.takeWhile (fun b => b != 44)
    item :: tokensLoop fuel (s.drop (item.length + 1))

def tokens (s : List UInt8) : List (List UInt8) := tokensLoop s.length s

/-- The item loop of `acl_chk_key` and `acl_chk_chap_alg_key`: the accepted
option, and the item left in the scratch buffer. -/
def scanItems (accept : List UInt8 → Option Int) :
    List (List UInt8) → List UInt8 → Option Int × List UInt8
  | [], scratch => (none, scratch)
  | item :: items, _ =>
    match accept item with
    | some o => (some o, item)
    | none => scanItems accept items item

theorem scanItems_fst (accept : List UInt8 → Option Int) (items : List (List UInt8))
    (scratch : List UInt8) : (scanItems accept items scratch).1 = items.findSome? accept := by
  induction items generalizing scratch with
  | nil => rfl
  | cons item items ih =>
    simp only [scanItems, List.findSome?_cons]
    cases accept item with
    | some o => rfl
    | none => exact ih item

def optionItem (optionList : List Int) (valueToText : Int → Option (List UInt8))
    (item : List UInt8) : Option Int :=
  optionList.find? (fun o => valueToText o == some item)

/-- The text loop of `acl_set_key` and `acl_set_chap_alg_key`: item `i` is copied
at 0 and appended otherwise; an option without text is skipped. -/
def joinOptions (valueToText : Int → Option (List UInt8)) :
    Nat → List Int → List UInt8 → List UInt8
  | _, [], scratch => scratch
  | i, o :: options, scratch =>
    match valueToText o with
    | none => joinOptions valueToText (i + 1) options scratch
    | some s =>
      if i = 0 then joinOptions valueToText (i + 1) options (strlcpy s authStrMaxLen).1
      else
        joinOptions valueToText (i + 1) options
          (strlcat (strlcat scratch [44] authStrMaxLen) s authStrMaxLen)

def IscsiAcl.setSend (c : IscsiAcl) (k : KeyType) (v : Option (List UInt8)) : IscsiAcl :=
  { c with sendKeyBlock := aclSetKeyValue c.sendKeyBlock k v }

def aclSetAuthMethodKey (c : IscsiAcl) (options : List Int) : IscsiAcl :=
  if options = [] then c.setSend .authMethod (some aclNoneOptionName)
  else if options = [authOptionNotPresent] then c.setSend .authMethod none
  else
    let scratch := joinOptions aclAuthmethodOptnToText 0 options c.scratchKeyValue
    { c with scratchKeyValue := scratch }.setSend .authMethod (some scratch)

def aclChkAuthMethodKey (c : IscsiAcl) : IscsiAcl :=
  let r := aclGetKeyVal c.recvKeyBlock .authMethod
  let c := { c with recvKeyBlock := r.2 }
  match r.1 with
  | none => { c with negotiatedAuthMethod := authOptionNotPresent }
  | some s =>
    let scan := scanItems (optionItem c.authMethodValidList aclAuthmethodOptnToText) (tokens s)
      c.scratchKeyValue
    { c with negotiatedAuthMethod := scan.1.getD authOptionReject, scratchKeyValue := scan.2 }

/-- The item an algorithm list accepts: its number equals an entry as `unsigned long`. -/
def chapAlgItem (chapAlgList : List Int) (item : List UInt8) : Option Int :=
  match aclTextToNumber item with
  | none => none
  | some number => chapAlgList.find? (fun o => o % 2 ^ 64 == (number : Int))

def aclChkChapAlgKey (c : IscsiAcl) : IscsiAcl :=
  let r := aclGetKeyVal c.recvKeyBlock .chapAlg
  let c := { c with recvKeyBlock := r.2 }
  match r.1 with
  | none => { c with negotiatedChapAlg := authOptionNotPresent }
  | some s =>
    let scan := scanItems (chapAlgItem c.chapAlgList) (tokens s) c.scratchKeyValue
    let c := { c with scratchKeyValue := scan.2 }
    match scan.1 with
    | none => { c with negotiatedChapAlg := authOptionReject }
    | some alg =>
      { c with
        negotiatedChapAlg := alg
        chapChallengeLen := match chapAlgOfCode alg with
          | some a => a.rspLen
          | none => c.chapChallengeLen }

def aclSetChapAlgKey (c : IscsiAcl) (options : List Int) : IscsiAcl :=
  if options = [] then c.setSend .chapAlg none
  else if options = [authOptionNotPresent] then c.setSend .chapAlg none
  else if options = [authOptionReject] then c.setSend .chapAlg (some aclRejectOptionName)
  else
    let scratch := joinOptions (fun o => some (decimal (o % 2 ^ 64).toNat)) 0 options
      c.scratchKeyValue
    { c with scratchKeyValue := scratch }.setSend .chapAlg (some scratch)

/-! ## Phases -/

def aclNextPhase (c : IscsiAcl) : IscsiAcl :=
  match c.phase with
  | .configure => { c with phase := .negotiate }
  | .negotiate =>
    let c := { c with phase := .authenticate }
    if c.negotiatedAuthMethod = authOptionReject ∨ c.negotiatedAuthMethod = authOptionNotPresent ∨
        c.negotiatedAuthMethod = authOptionNone then
      let c := { c with localState := .done, rmtState := .done }
      let c :=
        if c.authRmt then { c with rmtAuthStatus := .fail, phase := .done }
        else { c with rmtAuthStatus := .pass }
      { c with dbgStatus :=
          if c.negotiatedAuthMethod = authOptionReject then .authMethodReject
          else if c.negotiatedAuthMethod = authOptionNotPresent then .authMethodNotPresent
          else .authMethodNone }
    else if c.negotiatedAuthMethod = authMethodChap then
      { c with localState := .sendAlg, rmtState := .sendAlg }
    else
      { c with
        localState := .done
        rmtState := .done
        rmtAuthStatus := .fail
        dbgStatus := .authMethodBad }
  | .authenticate => { c with phase := .done }
  | _ => { c with phase := .error }

def aclChapComputeRsp (D : Digest) (c : IscsiAcl) (rmtAuth : Bool) (id : UInt8)
    (challenge : List UInt8) (init : Bool) : Except DbgStatus (List UInt8) :=
  if !c.passwdPresent then .error .localPasswdNotSet
  else
    match chapAlgOfCode c.negotiatedChapAlg, init with
    | some a, true =>
      if authStrMaxLen < c.passwdData.length then .error .passwdDecryptFailed
      else if !rmtAuth && !c.ipSec && decide (c.passwdData.length < 12) then
        .error .passwdTooShortWithNoIpsec
      else .ok (D.hash a (id :: c.passwdData ++ challenge))
    | _, _ => .error .authFail

def aclChapAuthRequest (D : Digest) (c : IscsiAcl) (session : Session) (username : List UInt8)
    (id : UInt8) (challenge response : List UInt8) (init : Bool) : AuthStatus :=
  if cstr session.usernameIn = [] then .fail
  else if cstr username ≠ cstr session.usernameIn then .fail
  else if session.passwordIn.length < 1 ∨ session.passwordIn.head? = some 0 then .fail
  else if response.length ≠ c.chapChallengeLen then .fail
  else
    match chapAlgOfCode c.negotiatedChapAlg, init with
    | some a, true =>
      let verify := D.hash a (id :: session.passwordIn ++ challenge)
      if response.take c.chapChallengeLen = verify.take c.chapChallengeLen then .pass else .fail
    | _, _ => .fail

def localFail (c : IscsiAcl) (dbg : DbgStatus) : IscsiAcl :=
  { c with localState := .error, dbgStatus := dbg }

def localRecvChallenge (D : Digest) (env : Env) (c : IscsiAcl) : IscsiAcl :=
  let ident := aclGetKeyVal c.recvKeyBlock .chapIdentifier
  let chal := aclGetKeyVal ident.2 .chapChallenge
  let c := { c with recvKeyBlock := chal.2 }
  if c.nodeType = .target ∧ ident.1 = none ∧ chal.1 = none then { c with localState := .done }
  else
    match ident.1, chal.1 with
    | none, _ => localFail c .chapIdentifierExpected
    | some _, none => localFail c .chapChallengeExpected
    | some identText, some _ =>
      match aclTextToNumber identText with
      | none => localFail c .chapIdentifierBad
      | some number =>
        if 255 < number then localFail c .chapIdentifierBad
        else
          match c.recvChapChallenge with
          | none => localFail c .challengeBad
          | some challenge =>
            if c.nodeType = .target ∧ challenge = c.sendChapChallenge then
              localFail c .chapChallengeReflected
            else
              match aclChapComputeRsp D c false (UInt8.ofNat number) challenge env.rspInit with
              | .error dbg => localFail c dbg
              | .ok rsp =>
                let text := (aclDataToText (rsp.take c.chapChallengeLen) authStrMaxLen).2
                let c := { c with scratchKeyValue := text }
                let c := c.setSend .chapRsp (some text)
                let c := c.setSend .chapUsername (some c.username)
                { c with localState := .done }

def localReadAlg (c : IscsiAcl) : IscsiAcl :=
  let c := aclChkChapAlgKey c
  if c.nodeType = .target then aclSetChapAlgKey c [c.negotiatedChapAlg] else c

/-- The choice is checked; an initiator falls through to the challenge. -/
def localTakeAlg (D : Digest) (env : Env) (c : IscsiAcl) : IscsiAcl :=
  if c.negotiatedChapAlg = authOptionNotPresent then localFail c .chapAlgExpected
  else if c.negotiatedChapAlg = authOptionReject then localFail c .chapAlgReject
  else if chapAlgOfCode c.negotiatedChapAlg = none then localFail c .chapAlgBad
  else if c.nodeType = .target then { c with localState := .recvChallenge }
  else localRecvChallenge D env c

def localRecvAlg (D : Digest) (env : Env) (c : IscsiAcl) : IscsiAcl :=
  localTakeAlg D env (localReadAlg c)

def aclLocalAuth (D : Digest) (env : Env) (c : IscsiAcl) : IscsiAcl :=
  match c.localState with
  | .sendAlg =>
    if c.nodeType = .initiator then { aclSetChapAlgKey c c.chapAlgList with localState := .recvAlg }
    else localRecvAlg D env c
  | .recvAlg => localRecvAlg D env c
  | .recvChallenge => localRecvChallenge D env c
  | .done => c
  | _ => { c with phase := .error }

def rmtFail (c : IscsiAcl) (dbg : DbgStatus) : IscsiAcl :=
  { c with rmtState := .error, dbgStatus := dbg }

def rmtSendChallenge (env : Env) (c : IscsiAcl) : IscsiAcl :=
  if !c.authRmt then
    { c with rmtAuthStatus := .pass, dbgStatus := .authRmtFalse, rmtState := .done }
  else
    match env.randId with
    | none => rmtFail c .authFail
    | some id =>
      let text := decimal id.toNat
      let c := { c with sendChapIdentifier := id, scratchKeyValue := text }
      let c := c.setSend .chapIdentifier (some text)
      match env.randChallenge with
      | none => rmtFail c .authFail
      | some bytes =>
        let c := { c with sendChapChallenge := (List.range c.chapChallengeLen).map bytes }
        { c.setSend .chapChallenge (some []) with rmtState := .recvRsp }

def recordVerdict (c : IscsiAcl) (status : AuthStatus) : IscsiAcl :=
  let c := { c with rmtAuthStatus := status, authRspFlag := true }
  let c :=
    if c.authServerErrorFlag then { c with rmtAuthStatus := .fail, dbgStatus := .authServerError }
    else if c.rmtAuthStatus = .pass then { c with dbgStatus := .authPass }
    else if c.rmtAuthStatus = .fail then { c with dbgStatus := .authFail }
    else { c with rmtAuthStatus := .fail, dbgStatus := .authStatusBad }
  { c with rmtState := .done }

/-- The response is the one this side's own secret would give. -/
def ownResponse (D : Digest) (env : Env) (c : IscsiAcl) (response : List UInt8) : Bool :=
  if response.length = c.chapChallengeLen then
    match aclChapComputeRsp D c true c.sendChapIdentifier c.sendChapChallenge env.reflectInit with
    | .ok mine => mine.take c.chapChallengeLen == response.take c.chapChallengeLen
    | .error _ => false
  else false

def rmtRecvRsp (D : Digest) (env : Env) (session : Session) (c : IscsiAcl) : IscsiAcl :=
  let rsp := aclGetKeyVal c.recvKeyBlock .chapRsp
  let name := aclGetKeyVal rsp.2 .chapUsername
  let c := { c with recvKeyBlock := name.2 }
  match rsp.1, name.1 with
  | none, _ => rmtFail c .chapRspExpected
  | some _, none => rmtFail c .chapUsernameExpected
  | some rspText, some nameText =>
    match aclTextToData (some rspText) authStrMaxLen with
    | none => rmtFail c .chapRspBad
    | some response =>
      if ownResponse D env c response then rmtFail c .passwdIdentical
      else
        let c := { c with chapUsername := (strlcpy nameText authStrMaxLen).1 }
        recordVerdict c
          (aclChapAuthRequest D c session c.chapUsername c.sendChapIdentifier c.sendChapChallenge
            response env.verifyInit)

def aclRmtAuth (D : Digest) (env : Env) (session : Session) (c : IscsiAcl) : IscsiAcl :=
  match c.rmtState with
  | .sendAlg =>
    if c.nodeType = .initiator then { c with rmtState := .sendChallenge } else rmtSendChallenge env c
  | .sendChallenge => rmtSendChallenge env c
  | .recvRsp => rmtRecvRsp D env session c
  | .done => c
  | _ => { c with phase := .error }

/-- Authentication ends without success. -/
def failDone (c : IscsiAcl) (dbg : DbgStatus) : IscsiAcl :=
  { c with rmtAuthStatus := .fail, phase := .done, dbgStatus := dbg }

def aclHandShake (c : IscsiAcl) : IscsiAcl :=
  if c.phase = .done then c
  else if c.nodeType = .initiator ∧ c.recvKeyBlock.transitBit ∧ !c.transitBitSentFlag then
    failDone c .tBitSetIllegal
  else if c.phase = .negotiate then
    if c.nodeType = .initiator then
      { c with sendKeyBlock := { c.sendKeyBlock with transitBit := true } }
    else c
  else if c.rmtState = .recvRsp ∨ c.rmtState = .done then
    match c.nodeType with
    | .initiator =>
      if c.recvKeyBlock.transitBit then
        if c.rmtState ≠ .done then failDone c .tBitSetPremature else aclNextPhase c
      else { c with sendKeyBlock := { c.sendKeyBlock with transitBit := true } }
    | .target =>
      if c.rmtState = .done ∧ c.rmtAuthStatus ≠ .pass then aclNextPhase c
      else if c.recvKeyBlock.transitBit then
        aclNextPhase { c with sendKeyBlock := { c.sendKeyBlock with transitBit := true } }
      else c
  else if c.nodeType = .initiator ∧ c.recvKeyBlock.transitBit then failDone c .tBitSetPremature
  else c

def rcvEndVerdict (c : IscsiAcl) : IscsiAcl × AuthStatus :=
  if c.phase = .done then
    let c :=
      if c.authRmt ∧ !c.authRspFlag ∧ c.rmtAuthStatus = .pass then
        { c with rmtAuthStatus := .fail, dbgStatus := .authpassNotValid }
      else c
    (c, c.rmtAuthStatus)
  else (c, .cont)

/-- The checks of both key blocks, made while the exchange is still good. -/
def rcvEndBlocks (c : IscsiAcl) (status : AuthStatus) : IscsiAcl × AuthStatus :=
  if status = .cont ∨ status = .pass then
    if c.sendKeyBlock.dupSet then (failDone c .sendDupSetKeyValue, .fail)
    else if c.sendKeyBlock.strTooLong then (failDone c .sendStrTooLong, .fail)
    else if c.sendKeyBlock.tooMuchData then (failDone c .sendTooMuchData, .fail)
    else if c.recvKeyBlock.unexpectedKey then (failDone c .unexpectedKeyPresent, .fail)
    else (c, status)
  else (c, status)

def suppressSend (c : IscsiAcl) : IscsiAcl :=
  let methodPresent := (c.sendKeyBlock.keyVal .authMethod).isSome
  let algPresent := (c.sendKeyBlock.keyVal .chapAlg).isSome
  let c' := { c with sendKeyBlock := aclInitKeyBlk }
  match c.nodeType with
  | .initiator => c'
  | .target =>
    if methodPresent then
      (if c.negotiatedAuthMethod = authOptionReject then
        c'.setSend .authMethod (some aclRejectOptionName) else c')
    else if algPresent ∧ c.negotiatedChapAlg = authOptionReject then
      c'.setSend .chapAlg (some aclRejectOptionName)
    else c'

def aclRcvEndStatus (c : IscsiAcl) : IscsiAcl × AuthStatus :=
  if c.phase = .error then (c, .error)
  else
    let v := rcvEndVerdict c
    let r := rcvEndBlocks v.1 v.2
    let c := if r.2 ≠ .pass ∧ r.2 ≠ .cont then suppressSend r.1 else r.1
    ({ c with recvInProgressFlag := false }, r.2)

end AuthClient
