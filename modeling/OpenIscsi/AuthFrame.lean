import OpenIscsi.AuthRun

/-!
# What each side of an exchange leaves alone

`acl_local_auth` and `acl_rmt_auth` share one record. `LocalFrame` holds what
the first never writes, `RmtFrame` what the second never writes, and both hold
the configured fields. A received key block counts by what can be read from it.
-/

namespace AuthFrame

open CString AuthText AuthKeys AuthClient AuthApi AuthRun

/-- The configured part of a client. -/
structure Setup where
  signature : Nat
  nodeType : NodeType
  chapAlgList : List Int
  authRmt : Bool
  username : List UInt8
  passwdPresent : Bool
  passwdData : List UInt8
  ipSec : Bool
  authMethodValidList : List Int

def setup (c : IscsiAcl) : Setup where
  signature := c.signature
  nodeType := c.nodeType
  chapAlgList := c.chapAlgList
  authRmt := c.authRmt
  username := c.username
  passwdPresent := c.passwdPresent
  passwdData := c.passwdData
  ipSec := c.ipSec
  authMethodValidList := c.authMethodValidList

/-- What both sides leave alone. -/
structure Shared where
  setup : Setup
  phase : Phase
  authMethodValidNegRole : NegRole
  transitBitSentFlag : Bool
  recvTransit : Bool
  recvVal : KeyType → Option (List UInt8)

def shared (c : IscsiAcl) : Shared where
  setup := setup c
  phase := c.phase
  authMethodValidNegRole := c.authMethodValidNegRole
  transitBitSentFlag := c.transitBitSentFlag
  recvTransit := c.recvKeyBlock.transitBit
  recvVal := c.recvKeyBlock.keyVal

structure LocalFrame where
  shared : Shared
  rmtState : RmtState
  rmtAuthStatus : AuthStatus
  authRspFlag : Bool
  sendChapIdentifier : UInt8
  sendChapChallenge : List UInt8

def localFrame (c : IscsiAcl) : LocalFrame where
  shared := shared c
  rmtState := c.rmtState
  rmtAuthStatus := c.rmtAuthStatus
  authRspFlag := c.authRspFlag
  sendChapIdentifier := c.sendChapIdentifier
  sendChapChallenge := c.sendChapChallenge

structure RmtFrame where
  shared : Shared
  localState : LocalState
  negotiatedChapAlg : Int
  chapChallengeLen : Nat

def rmtFrame (c : IscsiAcl) : RmtFrame where
  shared := shared c
  localState := c.localState
  negotiatedChapAlg := c.negotiatedChapAlg
  chapChallengeLen := c.chapChallengeLen

variable (D : Digest) (env : Env) (c : IscsiAcl) (b : KeyBlock)

/-- Reading keys changes only which keys count as processed. -/
theorem localFrame_read (ht : b.transitBit = c.recvKeyBlock.transitBit)
    (hv : b.keyVal = c.recvKeyBlock.keyVal) : localFrame { c with recvKeyBlock := b } = localFrame c := by
  simp only [localFrame, shared, ht, hv]
  rfl

theorem rmtFrame_read (ht : b.transitBit = c.recvKeyBlock.transitBit)
    (hv : b.keyVal = c.recvKeyBlock.keyVal) : rmtFrame { c with recvKeyBlock := b } = rmtFrame c := by
  simp only [rmtFrame, shared, ht, hv]
  rfl

theorem markProcessed_keyVal_eq (k : KeyType) :
    (b.markProcessed k).keyVal = b.keyVal := by
  funext k'
  exact markProcessed_keyVal b k k'

/-! ## The local side -/

theorem aclSetChapAlgKey_localFrame (options : List Int) :
    localFrame (aclSetChapAlgKey c options) = localFrame c := by
  unfold aclSetChapAlgKey
  split
  · rfl
  · split
    · rfl
    · split <;> rfl

theorem aclChkChapAlgKey_localFrame :
    localFrame (aclChkChapAlgKey c) = localFrame c := by
  have hread := localFrame_read c (c.recvKeyBlock.markProcessed .chapAlg) rfl
    (markProcessed_keyVal_eq _ _)
  rw [← hread]
  unfold aclChkChapAlgKey aclGetKeyVal
  dsimp only
  split
  · rfl
  · split <;> rfl

theorem localRecvChallenge_localFrame :
    localFrame (localRecvChallenge D env c) = localFrame c := by
  have hread := localFrame_read c
    ((c.recvKeyBlock.markProcessed .chapIdentifier).markProcessed .chapChallenge) rfl
    (by rw [markProcessed_keyVal_eq, markProcessed_keyVal_eq])
  rw [← hread]
  unfold localRecvChallenge aclGetKeyVal
  dsimp only
  repeat' split
  all_goals rfl

theorem localReadAlg_localFrame : localFrame (localReadAlg c) = localFrame c := by
  unfold localReadAlg
  dsimp only
  split
  · rw [aclSetChapAlgKey_localFrame, aclChkChapAlgKey_localFrame]
  · exact aclChkChapAlgKey_localFrame c

theorem localTakeAlg_localFrame :
    localFrame (localTakeAlg D env c) = localFrame c := by
  unfold localTakeAlg
  split
  · rfl
  · split
    · rfl
    · split
      · rfl
      · split
        · rfl
        · exact localRecvChallenge_localFrame D env c

/-- `acl_local_auth` leaves the remote side alone in every state it knows. -/
theorem aclLocalAuth_localFrame
    (hu : c.localState ≠ .unset) (he : c.localState ≠ .error) :
    localFrame (aclLocalAuth D env c) = localFrame c := by
  have halg : localFrame (localRecvAlg D env c) = localFrame c := by
    rw [localRecvAlg, localTakeAlg_localFrame, localReadAlg_localFrame]
  unfold aclLocalAuth
  cases hs : c.localState with
  | unset => exact absurd hs hu
  | error => exact absurd hs he
  | sendAlg =>
    dsimp only
    split
    · exact aclSetChapAlgKey_localFrame c c.chapAlgList
    · exact halg
  | recvAlg => exact halg
  | recvChallenge => exact localRecvChallenge_localFrame D env c
  | done => rfl

/-! ## The remote side -/

theorem rmtSendChallenge_rmtFrame :
    rmtFrame (rmtSendChallenge env c) = rmtFrame c := by
  unfold rmtSendChallenge
  split
  · rfl
  · split
    · rfl
    · dsimp only
      split <;> rfl

theorem recordVerdict_rmtFrame (status : AuthStatus) :
    rmtFrame (recordVerdict c status) = rmtFrame c := by
  unfold recordVerdict
  dsimp only
  split
  · rfl
  · split
    · rfl
    · split <;> rfl

theorem rmtRecvRsp_rmtFrame (session : Session) (c : IscsiAcl) :
    rmtFrame (rmtRecvRsp D env session c) = rmtFrame c := by
  have hread := rmtFrame_read c
    ((c.recvKeyBlock.markProcessed .chapRsp).markProcessed .chapUsername) rfl
    (by rw [markProcessed_keyVal_eq, markProcessed_keyVal_eq])
  rw [← hread]
  unfold rmtRecvRsp aclGetKeyVal
  dsimp only
  split
  · rfl
  · rfl
  · split
    · rfl
    · split
      · rfl
      · rw [recordVerdict_rmtFrame]
        rfl

end AuthFrame
