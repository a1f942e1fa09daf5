import OpenIscsi.IdbmStore

/-! # The database functions of the library

The functions of `libopeniscsiusr` that read node and interface records and write interface
records. They call the lock of the library, which has a count of its own. -/

namespace LibraryStore

open CString RecordFile FileSystem Interaction.Prog IdbmStore
open IdbmRecord (Field str)

/-- The errors of the library. -/
inductive LibCode where
  | bug | nomem | idbm | inval
  deriving DecidableEq, Repr

def libCode : IdbmRecord.LibError → LibCode
  | .inval => .inval
  | .bug => .bug

def ifaceConfigDir : Path := ascii "/etc/iscsi/ifaces"

def defaultIfaces : List (Name × List UInt8) :=
  [(ascii "default", ascii "tcp"), (ascii "iser", ascii "iser")]

def iscsiIsDefaultIface (name : Name) : Bool := (defaultIfaces.map Prod.fst).contains name

/-- A member of `_DEFAULT_IFACES`. -/
def defaultIface (iface : Name × List UInt8) : Field → Val :=
  Function.update (Function.update Field.zero .ifaceName (.text iface.1))
    .ifaceTransportName (.text iface.2)

/-- A directory that is not there has no entries. -/
def libScandir (p : Path) : Idbm (Except LibCode (List Name)) := do
  match ← scandir p with
  | .ok ns => return .ok ns
  | .error .noent => return .ok []
  | .error .nomem => return .error .nomem
  | .error .other => return .error .bug

/-! ### Interfaces -/

/-- What `_idbm_iface_get` makes of a file; an interface that is not valid is passed over. -/
def ifaceOfFile (name : Name) (file : List UInt8) : Except LibCode (Option (Field → Val)) :=
  let start := Function.update Field.zero .ifaceName (.text (name.take 64))
  let table := IdbmRecord.idbmRecinfoIface (if IdbmRecord.namesIpv6 name then .ipv6 else .ipv4)
  match IdbmRecord.libRecsRead table start file with
  | .error e => .error (libCode e)
  | .ok r => .ok (if IdbmRecord.ifaceIsValid r then some r else none)

def idbmIfaceGet (name : Name) : Idbm (Except LibCode (Option (Field → Val))) := do
  if name = ascii "iface.example" then return .ok none
  else
    match ← read (ifaceConfigDir ++ slash :: name) with
    | none => return .error .idbm
    | some text => return ifaceOfFile name text

/-- The loop of `iscsi_ifaces_get` over the files. -/
def getIfaces : List Name → List (Field → Val) → Idbm (Except LibCode (List (Field → Val)))
  | [], ifaces => return .ok ifaces
  | name :: rest, ifaces => do
    match ← idbmIfaceGet name with
    | .error e => return .error e
    | .ok none => getIfaces rest ifaces
    | .ok (some iface) => getIfaces rest (ifaces ++ [iface])

def ifacesLocked : Idbm (Except LibCode (List (Field → Val))) := do
  match ← libScandir ifaceConfigDir with
  | .error e => return .error e
  | .ok names =>
    match ← getIfaces names [] with
    | .error e => return .error e
    | .ok ifaces => return .ok (ifaces ++ defaultIfaces.map defaultIface)

/-- `out:` of `iscsi_ifaces_get` and `iscsi_nodes_get`: the lock is given back even if it was not
taken. -/
def unlockOut (result : Except LibCode α) : Idbm (Except LibCode α) := do
  idbmUnlock
  return result

def iscsiIfacesGet : Idbm (Except LibCode (List (Field → Val))) := do
  if ← idbmLock then
    let result ← ifacesLocked
    unlockOut result
  else unlockOut (.error .idbm)

/-- Whatever keeps a file from being an interface is an error of the database. -/
def ifaceOrError (name : Name) : Idbm (Except LibCode (Field → Val)) := do
  match ← idbmIfaceGet name with
  | .ok (some iface) => return .ok iface
  | _ => return .error .idbm

def iscsiIfaceGet (name : Name) : Idbm (Except LibCode (Field → Val)) :=
  match defaultIfaces.find? (·.1 = name) with
  | some iface => return .ok (defaultIface iface)
  | none => locked (.error .idbm) (ifaceOrError name)

def ifacePrint (iface : Field → Val) : List UInt8 :=
  let table := IdbmRecord.idbmRecinfoIface
    (if IdbmRecord.namesIpv6 (str iface .ifaceName) then .ipv6 else .ipv4)
  fileText IdbmRecord.iscsiBeginRec IdbmRecord.iscsiEndRec
    (IdbmRecord.library.lines IdbmRecord.valueMaxval Field.visible table iface)

/-- `_iface_conf_write`: when the file cannot be opened, the lock is not given back. -/
def ifaceConfWrite (iface : Field → Val) : Idbm (Except LibCode Unit) := do
  if iscsiIsDefaultIface (str iface .ifaceName) then return .error .inval
  else if ← idbmLock then
    let confPath := ifaceConfigDir ++ slash :: str iface .ifaceName
    if ← create confPath then
      print confPath (ifacePrint iface)
      idbmUnlock
      return .ok ()
    else return .error .idbm
  else return .error .idbm

/-! ### Nodes -/

def nodeGet (conf : Path) (iface : Option Name) : Idbm (Except LibCode (Option (Field → Val))) := do
  match ← read conf with
  | none => return .error .idbm
  | some text =>
    match IdbmRecord.idbmNodeGet iface text with
    | .error e => return .error (libCode e)
    | .ok node => return .ok node

/-- The nodes found so far; one that is not valid leaves a hole. -/
abbrev Nodes := List (Option (Field → Val))

/-- The loop over the interfaces of a portal. -/
def getNodeIfaces (portal : Path) : List Name → Nodes → Idbm (Except LibCode Nodes)
  | [], nodes => return .ok nodes
  | iface :: rest, nodes => do
    match ← nodeGet (portal ++ slash :: iface) (some iface) with
    | .error e => return .error e
    | .ok node => getNodeIfaces portal rest (nodes ++ [node])

/-- One portal: a file of the old style, or a directory of interfaces. -/
def getPortal (portal : Path) (nodes : Nodes) : Idbm (Except LibCode Nodes) := do
  match ← stat portal with
  | none => return .ok nodes
  | some .file =>
    match ← nodeGet portal none with
    | .error e => return .error e
    | .ok node => return .ok (nodes ++ [node])
  | some .dir =>
    match ← libScandir portal with
    | .error e => return .error e
    | .ok ifaces => getNodeIfaces portal ifaces nodes
  | some .other => return .error .idbm

def getPortals (target : Path) : List Name → Nodes → Idbm (Except LibCode Nodes)
  | [], nodes => return .ok nodes
  | portal :: rest, nodes => do
    match ← getPortal (target ++ slash :: portal) nodes with
    | .error e => return .error e
    | .ok nodes => getPortals target rest nodes

/-- The loop over the targets. -/
def getTargets : List Name → Nodes → Idbm (Except LibCode Nodes)
  | [], nodes => return .ok nodes
  | target :: rest, nodes => do
    let dir := nodeConfigDir ++ slash :: target
    match ← libScandir dir with
    | .error e => return .error e
    | .ok portals =>
      match ← getPortals dir portals nodes with
      | .error e => return .error e
      | .ok nodes => getTargets rest nodes

def nodesLocked : Idbm (Except LibCode Nodes) := do
  match ← libScandir nodeConfigDir with
  | .error e => return .error e
  | .ok targets => getTargets targets []

def iscsiNodesGet : Idbm (Except LibCode Nodes) := do
  if ← idbmLock then
    let result ← nodesLocked
    unlockOut result
  else unlockOut (.error .idbm)

end LibraryStore
