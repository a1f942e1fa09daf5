import OpenIscsi.IdbmLibrary
import OpenIscsi.PortalText
import OpenIscsi.SendTargets
import OpenIscsi.Lib.FileSystem
import OpenIscsi.Lib.Interaction

/-! # The node database

The functions of `usr/idbm.c` that keep node records and discovery links in files, as programs
that call the file system. -/

namespace IdbmStore

open CString RecordFile FileSystem Interaction Interaction.Prog
open IdbmRecord (Field str num)
open SendTargets (DiscoveryType)

inductive Call where
  | file (c : FileSystem.Call)
  | lock
  | unlock

def Call.Answer : Call → Type
  | .file c => c.Answer
  | .lock => Bool
  | .unlock => Unit

abbrev Idbm := Prog Call Call.Answer

def onFile (c : FileSystem.Call) : Idbm c.Answer := ask (C := Call) (.file c)

def stat (p : Path) : Idbm (Option FileSystem.Kind) := onFile (.stat p)
def mkdir (p : Path) : Idbm Bool := onFile (.mkdir p)
def unlink (p : Path) : Idbm Bool := onFile (.unlink p)
def rmdir (p : Path) : Idbm Bool := onFile (.rmdir p)
def create (p : Path) : Idbm Bool := onFile (.create p)
def print (p : Path) (text : List UInt8) : Idbm Unit := onFile (.print p text)
def read (p : Path) : Idbm (Option (List UInt8)) := onFile (.read p)
def symlink (target p : Path) : Idbm LinkResult := onFile (.symlink target p)
def entries (p : Path) : Idbm (Option (List Name)) := onFile (.entries p)
def scandir (p : Path) : Idbm (Except ScanError (List Name)) := onFile (.scandir p)
def idbmLock : Idbm Bool := ask (C := Call) .lock
def idbmUnlock : Idbm Unit := ask (C := Call) .unlock

/-- Open a file for writing, and put a text in it; nobody looks whether that worked. -/
def write (p : Path) (text : List UInt8) : Idbm Bool := do
  if ← create p then
    print p text
    return true
  else return false

def iscsiErrIdbm : Int := 6
def iscsiErrInval : Int := 7

/-! ### Paths -/

def nodeConfigDir : Path := ascii "/etc/iscsi/nodes"
def isnsConfigDir : Path := ascii "/etc/iscsi/isns"
def staticConfigDir : Path := ascii "/etc/iscsi/static"
def fwConfigDir : Path := ascii "/etc/iscsi/fw"
def stConfigDir : Path := ascii "/etc/iscsi/send_targets"
def stConfigName : Name := ascii "st_config"
def isnsConfigName : Name := ascii "isns_config"

def portalGroupTagUnknown : Int := -1

/-- What the path of a node record is made of. -/
structure Key where
  name : List UInt8
  tpgt : Int
  address : List UInt8
  port : Int
  iface : List UInt8
  deriving DecidableEq, Repr

def keyOf (r : Field → Val) : Key where
  name := str r .name
  tpgt := num r .tpgt
  address := str r .connAddress
  port := num r .connPort
  iface := str r .ifaceName

/-- `"%s,%d"`. -/
def portalName (address : List UInt8) (port : Int) : Name := address ++ comma :: printInt port

/-- `"%s/%s,%d"`: the directory of a discovery source. -/
def sourceDir (root : Path) (address : List UInt8) (port : Int) : Path :=
  root ++ slash :: portalName address port

namespace Key

def targetDir (k : Key) : Path := nodeConfigDir ++ slash :: k.name

def oldPortal (k : Key) : Path := k.targetDir ++ slash :: portalName k.address k.port

/-- `"%s,%d,%d"`. -/
def entryName (k : Key) : Name := portalName k.address k.port ++ comma :: printInt k.tpgt

def portalDir (k : Key) : Path := k.targetDir ++ slash :: k.entryName

def recFile (k : Key) : Path := k.portalDir ++ slash :: k.iface

/-- `"%s,%s,%d,%d,%s"`. -/
def linkName (k : Key) : Name := k.name ++ comma :: (k.entryName ++ comma :: k.iface)

def link (k : Key) (dir : Path) : Path := dir ++ slash :: k.linkName

end Key

/-! ### Records -/

/-- `access(path, F_OK)`, and `mkdir` if it is not there. -/
def ensureDir (p : Path) : Idbm Bool := do
  match ← stat p with
  | some _ => return true
  | none => mkdir p

def openConf (p : Path) (rec : Field → Val) : Idbm Int := do
  if ← write p (IdbmRecord.idbmRecWrite rec) then return 0 else return iscsiErrIdbm

def mkdirPortal (rec : Field → Val) : Idbm Int := do
  if ← ensureDir (keyOf rec).portalDir then openConf (keyOf rec).recFile rec
  else return iscsiErrIdbm

/-- The part of `idbm_rec_write` under the lock. An old style portal is converted when the record
has a portal group tag. -/
def storeRec (rec : Field → Val) : Idbm Int := do
  let portal := (keyOf rec).oldPortal
  match ← stat portal with
  | none =>
    if num rec .tpgt = portalGroupTagUnknown then openConf portal rec else mkdirPortal rec
  | some .dir => return iscsiErrInval
  | some _ =>
    if num rec .tpgt = portalGroupTagUnknown then openConf portal rec
    else if ← unlink portal then mkdirPortal rec
    else return iscsiErrIdbm

def locked (err : α) (body : Idbm α) : Idbm α := do
  if ← idbmLock then
    let a ← body
    idbmUnlock
    return a
  else return err

def idbmRecWrite (rec : Field → Val) (disableLock : Bool) : Idbm Int := do
  if ← ensureDir nodeConfigDir then
    if ← ensureDir (keyOf rec).targetDir then
      if disableLock then storeRec rec else locked iscsiErrIdbm (storeRec rec)
    else return iscsiErrIdbm
  else return iscsiErrIdbm

def recReadFile (conf : Path) : Idbm (Except Int (Field → Val)) := do
  match ← read conf with
  | some text => return .ok (IdbmRecord.idbmRecRead text)
  | none => return .error iscsiErrIdbm

def recReadFileLocked (conf : Path) (disableLock : Bool) : Idbm (Except Int (Field → Val)) :=
  if disableLock then recReadFile conf else locked (.error iscsiErrIdbm) (recReadFile conf)

def idbmRecRead (k : Key) (disableLock : Bool) : Idbm (Except Int (Field → Val)) := do
  match ← stat k.oldPortal with
  | some _ => recReadFileLocked k.oldPortal disableLock
  | none =>
    if k.iface = [] then return .error iscsiErrInval
    else
      match ← stat k.recFile with
      | some _ => recReadFileLocked k.recFile disableLock
      | none => return .error iscsiErrIdbm

/-! ### Discovery links -/

def discCode : DiscoveryType → Int
  | .sendtargets => 0
  | .isns => 1
  | .offloadSendtargets => 2
  | .slp => 3
  | .static => 4
  | .fw => 5

def discTypes : List DiscoveryType :=
  [.sendtargets, .isns, .offloadSendtargets, .slp, .static, .fw]

def discType (rec : Field → Val) : Option DiscoveryType :=
  discTypes.find? (discCode · = num rec .discType)

/-- A failed `mkdir` is an error, but the path is made all the same. -/
def linkUnder (dir : Path) (k : Key) : Idbm (Int × Path) := do
  if ← ensureDir dir then return (0, k.link dir) else return (iscsiErrIdbm, k.link dir)

/-- For iSNS a link of the old style is used if there is one, and made if the server has no
directory. -/
def isnsLink (rec : Field → Val) (rc : Int) : Idbm (Int × Path) := do
  let k := keyOf rec
  let server := sourceDir isnsConfigDir (str rec .discAddress) (num rec .discPort)
  match ← stat (k.link isnsConfigDir) with
  | some _ => return (rc, k.link isnsConfigDir)
  | none =>
    match ← stat server with
    | some .dir => return (rc, k.link server)
    | _ => return (rc, k.link isnsConfigDir)

def setupDiscToNodeLink (rec : Field → Val) : Idbm (Int × Path) :=
  match discType rec with
  | some .sendtargets =>
    return (0, (keyOf rec).link
      (sourceDir stConfigDir (str rec .discAddress) (num rec .discPort)))
  | some .fw => linkUnder fwConfigDir (keyOf rec)
  | some .static => linkUnder staticConfigDir (keyOf rec)
  | some .isns => do
    if ← ensureDir isnsConfigDir then isnsLink rec 0 else isnsLink rec iscsiErrIdbm
  | _ => return (iscsiErrInval, [])

/-- A link is only removed if it leads somewhere. -/
def rmLink (portal : Path) : Idbm Int := do
  match ← stat portal with
  | some _ => if ← unlink portal then return 0 else return iscsiErrIdbm
  | none => return 0

def idbmRemoveDiscToNodeLink (k : Key) : Idbm Int := do
  match ← recReadFileLocked k.recFile false with
  | .error _ => return 0
  | .ok tmprec =>
    let (rc, portal) ← setupDiscToNodeLink tmprec
    if rc ≠ 0 then return rc else locked iscsiErrIdbm (rmLink portal)

/-- A target's directory goes with its last portal. -/
def rmTargetDir (k : Key) : Idbm Int := do
  let _ ← rmdir k.targetDir
  idbmUnlock
  return 0

/-- The end of `idbm_delete_node`: a portal's directory goes with its last entry, and if that
fails the target's directory is left alone. When the portal's directory cannot be read, the lock
is not given back. -/
def rmDirs (k : Key) : Idbm Int := do
  match ← stat k.portalDir with
  | none => rmTargetDir k
  | some _ =>
    match ← scandir k.portalDir with
    | .error _ => return 0
    | .ok ns =>
      if ns.filter (· ≠ stConfigName) = [] then
        if ← rmdir k.portalDir then rmTargetDir k
        else
          idbmUnlock
          return 0
      else rmTargetDir k

def rmConf (k : Key) (conf : Path) : Idbm Int := do
  if ← unlink conf then rmDirs k
  else
    idbmUnlock
    return iscsiErrIdbm

/-- `idbm_delete_node`, which only looks at the members of the record that make its path. -/
def idbmDeleteNode (k : Key) : Idbm Int := do
  let rc ← idbmRemoveDiscToNodeLink k
  if rc ≠ 0 then return rc
  else if ← idbmLock then
    match ← stat k.oldPortal with
    | some _ => rmConf k k.oldPortal
    | none =>
      match ← stat k.recFile with
      | some _ => rmConf k k.recFile
      | none =>
        idbmUnlock
        return iscsiErrIdbm
  else return iscsiErrIdbm

/-- `discovery_rec_t`; `config` is what `idbm_print` makes of it. -/
structure Drec where
  type : DiscoveryType
  address : List UInt8
  port : Int
  config : List UInt8
  deriving DecidableEq, Repr

def iscsiStartupOnboot : Int := 2

/-- The discovery source goes into the record. -/
def withSource (rec : Field → Val) (drec : Drec) : Field → Val
  | .discType => .num (discCode drec.type)
  | .discPort => .num drec.port
  | .discAddress => .text drec.address
  | f => rec f

/-- An overwritten record of the firmware is started on boot. -/
def onboot (rec : Field → Val) : Field → Val
  | .startup | .connStartup => .num iscsiStartupOnboot
  | f => rec f

/-- Make the link from the discovery source; a link that is there already is left alone. -/
def linkNode (rec : Field → Val) : Idbm Int := do
  let (rc, discPortal) ← setupDiscToNodeLink rec
  if rc ≠ 0 then return rc
  else
    match ← symlink (keyOf rec).portalDir discPortal with
    | .failed => return iscsiErrIdbm
    | _ => return 0

def addRec (newrec : Field → Val) (drec : Option Drec) : Idbm Int := do
  match drec with
  | none => idbmRecWrite newrec true
  | some d =>
    let rc ← idbmRecWrite (withSource newrec d) true
    if rc ≠ 0 ∨ num newrec .tpgt = portalGroupTagUnknown then return rc
    else linkNode (withSource newrec d)

/-- The part of `idbm_add_node` under the lock. To overwrite a record without a discovery
record is a null dereference, here `none`. -/
def addNodeLocked (newrec : Field → Val) (drec : Option Drec) (overwrite : Bool) :
    Idbm (Option Int) := do
  match ← idbmRecRead (keyOf newrec) true with
  | .error _ => return some (← addRec newrec drec)
  | .ok rec =>
    if !overwrite then return some 0
    else
      let rc ← idbmDeleteNode (keyOf rec)
      if rc ≠ 0 then return some rc
      else
        match drec with
        | none => return none
        | some d => return some (← addRec (if d.type = .fw then onboot newrec else newrec) drec)

def idbmAddNode (newrec : Field → Val) (drec : Option Drec) (overwrite : Bool) :
    Idbm (Option Int) := do
  locked (some iscsiErrIdbm) (addNodeLocked newrec drec overwrite)

/-! ### Discovery records -/

def discConfig : DiscoveryType → Option (Path × Name)
  | .sendtargets => some (stConfigDir, stConfigName)
  | .isns => some (isnsConfigDir, isnsConfigName)
  | _ => none

/-- A record of the old style is the portal itself. -/
def idbmOpenRecR (portal : Path) (config : Name) : Idbm (Option (List UInt8)) := do
  match ← stat portal with
  | none => return none
  | some .dir => read (portal ++ slash :: config)
  | some _ => read portal

def idbmDiscoveryRead (type : DiscoveryType) (address : List UInt8) (port : Int) :
    Idbm (Except Int (List UInt8)) :=
  match discConfig type with
  | none => return .error iscsiErrInval
  | some (root, config) => locked (.error iscsiErrIdbm) do
    match ← idbmOpenRecR (sourceDir root address port) config with
    | some text => return .ok text
    | none => return .error iscsiErrIdbm

def mkdirRec (portal : Path) (config : Name) (text : List UInt8) : Idbm Bool := do
  if ← mkdir portal then write (portal ++ slash :: config) text else return false

/-- A record of the old style is converted. -/
def idbmOpenRecW (portal : Path) (config : Name) (text : List UInt8) : Idbm Bool := do
  match ← stat portal with
  | none => mkdirRec portal config text
  | some .dir => write (portal ++ slash :: config) text
  | some _ => if ← unlink portal then mkdirRec portal config text else return false

def idbmDiscoveryWrite (rec : Drec) : Idbm Int :=
  match discConfig rec.type with
  | none => return iscsiErrInval
  | some (root, config) => locked iscsiErrIdbm do
    if ← ensureDir root then
      if ← idbmOpenRecW (sourceDir root rec.address rec.port) config rec.config then return 0
      else return iscsiErrIdbm
    else return iscsiErrIdbm

/-- A record that is there already is written again. -/
def idbmAddDiscovery (newrec : Drec) : Idbm Int := do
  let _ ← idbmDiscoveryRead newrec.type newrec.address newrec.port
  idbmDiscoveryWrite newrec

def iscsiMaxIfaceLen : Nat := 65

def getParamsFromDiscLink (link : Name) : Option Key := do
  let (target, rest) ← splitFirst comma link
  let (address, rest) ← splitFirst comma rest
  let (port, rest) ← splitFirst comma rest
  let (tpgt, ifaceId) ← splitFirst comma rest
  return {
    name := (strlcpy target SendTargets.targetNameMaxlen).1
    tpgt := atoi tpgt
    address := (strlcpy address SendTargets.niMaxhost).1
    port := atoi port
    iface := (strlcpy ifaceId iscsiMaxIfaceLen).1 }

def rmNodes : List Name → Idbm Unit
  | [] => return
  | link :: links => do
    match getParamsFromDiscLink link with
    | none => rmNodes links
    | some k =>
      let _ ← idbmDeleteNode k
      rmNodes links

def idbmRmDiscNodeLinks (discDir : Path) : Idbm Unit := do
  match ← entries discDir with
  | none => return
  | some links => rmNodes links

/-- The nodes that were found through a discovery source go with it. A type without records is
an access outside of the table, here `none`. -/
def idbmDeleteDiscovery (drec : Drec) : Idbm (Option Int) :=
  match discConfig drec.type with
  | none => return none
  | some (root, config) => do
    let portal := sourceDir root drec.address drec.port
    match ← stat portal with
    | none => return some 0
    | some .dir =>
      let _ ← unlink (portal ++ slash :: config)
      idbmRmDiscNodeLinks portal
      let _ ← rmdir portal
      return some 0
    | some _ =>
      let _ ← unlink portal
      idbmRmDiscNodeLinks portal
      return some 0

/-- A node whose link says which node it is for. -/
structure Named (k : Key) : Prop where
  name : comma ∉ k.name ∧ NulFree k.name ∧ k.name.length < SendTargets.targetNameMaxlen
  address : comma ∉ k.address ∧ NulFree k.address ∧ k.address.length < SendTargets.niMaxhost
  iface : NulFree k.iface ∧ k.iface.length < iscsiMaxIfaceLen
  port : 0 ≤ k.port ∧ k.port < 2 ^ 31
  tpgt : 0 ≤ k.tpgt ∧ k.tpgt < 2 ^ 31

theorem strlcpy_short {s : List UInt8} {n : Nat} (h : NulFree s ∧ s.length < n) :
    (strlcpy s n).1 = s := by
  have hs := cstr_of_nulFree s h.1
  rw [strlcpy_fits s n (by rw [hs]; exact h.2), hs]

theorem atoi_printInt {n : Int} (h : 0 ≤ n ∧ n < 2 ^ 31) : atoi (printInt n) = n := by
  rw [printInt, if_neg (by omega), atoi_decimal (by omega)]
  omega

theorem Named.params {k : Key} (h : Named k) : getParamsFromDiscLink k.linkName = some k := by
  have hfree := PortalText.not_mem_printInt (c := comma) (by decide) (by decide)
  simp [getParamsFromDiscLink, Key.linkName, Key.entryName, portalName, strlcpy_short h.iface,
    PortalText.splitFirst_append _ h.name.1, PortalText.splitFirst_append _ h.address.1,
    PortalText.splitFirst_append _ (hfree _), strlcpy_short h.name.2, strlcpy_short h.address.2,
    atoi_printInt h.port, atoi_printInt h.tpgt]

/-- The nodes that are deleted with a discovery source are those its links were made for. -/
theorem rmNodes_links (ks : List Key) (hks : ∀ k ∈ ks, Named k) :
    rmNodes (ks.map Key.linkName) =
      ks.foldr (fun k rest => do let _ ← idbmDeleteNode k; rest) (pure ()) := by
  induction ks with
  | nil => rfl
  | cons k ks ih =>
    rw [List.forall_mem_cons] at hks
    rw [List.map_cons, rmNodes, hks.1.params, List.foldr_cons, ← ih hks.2]

def sampleKey : Key := ⟨[116], 1, [97], 3260, [105]⟩

theorem rmNodes_links_sample :
    rmNodes [sampleKey.linkName] = (do let _ ← idbmDeleteNode sampleKey) :=
  rmNodes_links [sampleKey]
    (by simpa using ⟨by decide +kernel, by decide +kernel, by decide +kernel, by decide, by decide⟩)

/-! ### Iterators -/

/-- Where an iterator is: the first error, and how many records it has found. -/
structure Progress where
  rc : Int := 0
  found : Nat := 0
  deriving DecidableEq, Repr

/-- Less than zero means that it was not a match. -/
def Progress.add (s : Progress) (currRc : Int) : Progress :=
  if 0 < currRc ∧ s.rc = 0 then { s with rc := currRc }
  else if currRc = 0 then { s with found := s.found + 1 }
  else s

/-- The loop of `idbm_for_each_iface`; a record that cannot be read is passed over. -/
def visitIfaces (fn : (Field → Val) → Idbm Int) (k : Key) (ruwLock : Bool) :
    List Name → Progress → Idbm Progress
  | [], s => return s
  | iface :: ifaces, s => do
    match ← recReadFileLocked { k with iface := iface }.recFile ruwLock with
    | .error _ => visitIfaces fn k ruwLock ifaces s
    | .ok rec =>
      let currRc ← fn rec
      visitIfaces fn k ruwLock ifaces (s.add currRc)

def visitOld (fn : (Field → Val) → Idbm Int) (k : Key) (ruwLock : Bool) (found : Nat) :
    Idbm Progress := do
  match ← stat k.oldPortal with
  | none => return { rc := iscsiErrIdbm, found }
  | some _ =>
    match ← recReadFileLocked k.oldPortal ruwLock with
    | .error rc => return { rc, found }
    | .ok rec =>
      let rc ← fn rec
      if rc = 0 then return { rc, found := found + 1 }
      else if rc = -1 then return { found }
      else return { rc, found }

def idbmForEachIface (fn : (Field → Val) → Idbm Int) (k : Key) (ruwLock : Bool) (found : Nat) :
    Idbm Progress := do
  if 0 ≤ k.tpgt then
    match ← entries k.portalDir with
    | none => return { rc := iscsiErrIdbm, found }
    | some ifaces => visitIfaces fn k ruwLock ifaces { found }
  else visitOld fn k ruwLock found

/-- With the lock for reading, updating and writing, a portal is visited under it. -/
def portalFn (fn : (Field → Val) → Idbm Int) (ruwLock : Bool) (k : Key) (found : Nat) :
    Idbm Progress :=
  if ruwLock then
    locked { rc := iscsiErrIdbm, found } (idbmForEachIface fn k ruwLock found)
  else idbmForEachIface fn k ruwLock found

/-- The portal that the name of a file or a directory is for; without a tag it is of the old
style. -/
def portalOf (target entry : Name) : Option Key :=
  (splitFirst comma entry).map fun (address, rest) =>
    match splitFirst comma rest with
    | some (port, tpgt) => { name := target, tpgt := atoi tpgt, address, port := atoi port, iface := [] }
    | none => { name := target, tpgt := -1, address, port := atoi rest, iface := [] }

/-- What is inside is found, but only its error counts. -/
def Progress.enter (s inner : Progress) : Progress :=
  { rc := if 0 < inner.rc ∧ s.rc = 0 then inner.rc else s.rc, found := inner.found }

def visitPortals (fn : Key → Nat → Idbm Progress) (target : Name) :
    List Name → Progress → Idbm Progress
  | [], s => return s
  | entry :: rest, s => do
    match portalOf target entry with
    | none => visitPortals fn target rest s
    | some k =>
      let inner ← fn k s.found
      visitPortals fn target rest (s.enter inner)

def idbmForEachPortal (fn : Key → Nat → Idbm Progress) (target : Name) (found : Nat) :
    Idbm Progress := do
  match ← entries (nodeConfigDir ++ slash :: target) with
  | none => return { rc := iscsiErrIdbm, found }
  | some portals => visitPortals fn target portals { found }

/-- The loop of `idbm_for_each_node`. -/
def visitNodes (fn : Name → Nat → Idbm Progress) : List Name → Progress → Idbm Progress
  | [], s => return s
  | target :: rest, s => do
    let inner ← fn target s.found
    visitNodes fn rest (s.enter inner)

/-- Without the directory there are no records. -/
def idbmForEachNode (fn : Name → Nat → Idbm Progress) : Idbm Progress := do
  match ← entries nodeConfigDir with
  | none => return {}
  | some targets => visitNodes fn targets {}

def idbmForEachRec (fn : (Field → Val) → Idbm Int) (ruwLock : Bool) : Idbm Progress :=
  idbmForEachNode (idbmForEachPortal (portalFn fn ruwLock))

end IdbmStore
