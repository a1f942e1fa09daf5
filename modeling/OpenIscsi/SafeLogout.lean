import OpenIscsi.Lib.GraphSum

/-!
# Logging out of a session whose disks are in use

`session_in_use` of `mntcheck.c` and its caller `session_logout_task`. The users of
a disk are counted by a recursion over the directories of sysfs: partitions are
sub-directories of a block device, holders are links in its `holders` directory.
Directories stand for the paths the source builds, allocations succeed.
-/

namespace SafeLogout

open GraphSum List

/-- The counters are `int`. -/
abbrev Count := BitVec 32

/-! ## sysfs -/

inductive DType where
  | dir | link | file
  deriving DecidableEq, Repr

/-- An entry of a directory and the directory its path leads to, through links. -/
structure Entry (Dir : Type) where
  name : String
  dType : DType
  target : Option Dir
  deriving DecidableEq, Repr

/-- The part of sysfs that is read: directories with their `uevent` lines, and for a
session its host, its LUNs and their block devices. -/
structure Sysfs (Dir : Type) where
  entries : Dir → List (Entry Dir)
  uevent : Dir → List (String × String)
  hostNo : Nat → Option Int
  devices : Int → Nat → List (Int × Int × Int)
  blockdev : Int × Int × Int → Option String
  classBlock : String → Option Dir

/-- The tables of libmount. -/
inductive Table where
  | mtab | swaps
  deriving DecidableEq, Repr

section Count

variable {Dir : Type} (sys : Sysfs Dir) (mntTableFindSource : Table → String → Bool)

def sysfsGetUeventField (d : Dir) (field : String) : Option String :=
  ((sys.uevent d).find? (fun line => line.1 == field)).map Prod.snd

def transFilter (e : Entry Dir) : Bool := e.name != "." && e.name != ".."

def subdirFilter (e : Entry Dir) : Bool := e.dType == .dir && transFilter e

def isPartition (d : Dir) : Bool := sysfsGetUeventField sys d "DEVTYPE" == some "partition"

def blockdevCheckMnts (d : Dir) : Count :=
  match sysfsGetUeventField sys d "DEVNAME" with
  | none => 0
  | some devname =>
    if mntTableFindSource .mtab ("/dev/" ++ devname) then 1
    else if mntTableFindSource .swaps ("/dev/" ++ devname) then 1
    else 0

/-- The sub-directories that are partitions. -/
def partitions (d : Dir) : List Dir :=
  (((sys.entries d).filter subdirFilter).filterMap Entry.target).filter (isPartition sys)

/-- Where the links in the `holders` directory lead. -/
def holders (d : Dir) : List Dir :=
  match ((sys.entries d).find? (fun e => e.name == "holders")).bind Entry.target with
  | none => []
  | some path => ((sys.entries path).filter transFilter).filterMap Entry.target

end Count

/-! ## The logout task -/

inductive ConnState where
  | free | xptWait | inLogin | loggedIn | inLogout | logoutRequested | cleanupWait
  deriving DecidableEq, Repr

inductive RStage where
  | noChange | sessionCleanup | sessionReopen | sessionRedirect | sessionDestoyed
  deriving DecidableEq, Repr

/-- What the task reads of a session and its first connection. -/
structure Session where
  notifyQtask : Bool
  rStage : RStage
  state : ConnState
  logoutQtask : Bool
  loginOffload : Bool
  deriving DecidableEq, Repr

/-- What the task asks the kernel and the target to do. -/
inductive Action where
  | unbind | sendLogout | shutdown
  deriving DecidableEq, Repr

inductive Rc where
  | success | sessNotFound | sessionNotConnected | internal | busy | shutdown (rc : Nat)
  deriving DecidableEq, Repr

/-- How the kernel and the target answer. -/
structure Answers where
  unbind : Bool
  sendLogout : Bool
  shutdown : Nat
  deriving DecidableEq, Repr

/-- The return value, whether the session has a logout task now, and the actions taken. -/
structure Outcome where
  rc : Rc
  logoutQtask : Bool
  actions : List Action
  deriving DecidableEq, Repr

def startLogout (session : Session) (answers : Answers) : Outcome :=
  match session.state with
  | .loggedIn =>
    if answers.unbind then ⟨.success, true, [.unbind]⟩
    else if !session.loginOffload && !answers.sendLogout then
      -- the source returns here when `iscsi_send_logout` fails
      ⟨.success, true, [.unbind, .sendLogout]⟩
    else if !session.loginOffload then
      ⟨.shutdown answers.shutdown, true, [.unbind, .sendLogout, .shutdown]⟩
    else ⟨.shutdown answers.shutdown, true, [.unbind, .shutdown]⟩
  | _ => ⟨.shutdown answers.shutdown, true, [.shutdown]⟩

/-- The states in which a logout is refused at once. -/
def invalidState (session : Session) : Bool :=
  session.notifyQtask ||
    ((session.state == .xptWait || session.state == .inLogin) &&
      (session.rStage == .noChange || session.rStage == .sessionRedirect))

/-- `session_logout_task` for a session that may not exist. `inUse` is the call of
`session_in_use`, made only with `safe_logout`. -/
def sessionLogoutTask (safeLogout : Bool) (inUse : Option Count) (answers : Answers) :
    Option Session → Option Outcome
  | none => some ⟨.sessNotFound, false, []⟩
  | some session =>
    if session.notifyQtask && session.state == .xptWait && session.rStage == .sessionReopen then
      some ⟨.sessionNotConnected, session.logoutQtask, []⟩
    else if invalidState session then some ⟨.internal, session.logoutQtask, []⟩
    else
      (if safeLogout then inUse else some 0).map (fun count =>
        if count ≠ 0 then ⟨.busy, session.logoutQtask, []⟩
        else if session.logoutQtask then ⟨.internal, session.logoutQtask, []⟩
        else startLogout session answers)

/-! ## Users of a session -/

section Users

variable {Dir : Type} (sys : Sysfs Dir) (mntTableFindSource : Table → String → Bool)

def above (d : Dir) : List Dir := partitions sys d ++ holders sys d

def roots (sid : Nat) : List Dir :=
  match sys.hostNo sid with
  | none => []
  | some hostNo =>
    (sys.devices hostNo sid).filterMap (fun lun => (sys.blockdev lun).bind sys.classBlock)

/-- One for a source, as a number that does not wrap. -/
def weight (d : Dir) : Nat := (blockdevCheckMnts sys mntTableFindSource d).toNat

variable {sys mntTableFindSource}

/-- How many ways lead from the LUNs of a session to sources. -/
noncomputable def uses (hwf : WellFounded (fun e d => e ∈ above sys d))
    (mntTableFindSource : Table → String → Bool) (sid : Nat) : Nat :=
  ((roots sys sid).map (value hwf (weight sys mntTableFindSource))).sum

end Users

/-- Find a source by its name. -/
def findIn (sources : Table → List String) (t : Table) (s : String) : Bool :=
  (sources t).contains s

end SafeLogout
