import OpenIscsi.LibraryStore

/-! # Interface records

The functions of `usr/iface.c` that read, write and update the file of an interface. -/

namespace IfaceStore

open CString RecordFile FileSystem Interaction.Prog IdbmStore
open IdbmRecord (Field str)
open LibraryStore (ifaceConfigDir defaultIfaces)

def ifaceMatchDefault (name : Name) : Bool := (defaultIfaces.map Prod.fst).contains name

def ifaceConf (name : Name) : Path := ifaceConfigDir ++ slash :: name

def confRead (name : Name) : Idbm (Except Int (Field → Val)) := do
  match ← read (ifaceConf name) with
  | some text => return .ok (IdbmRecord.ifaceConfRead name text)
  | none => return .error iscsiErrIdbm

/-- The transport of a special interface is known; a file is tried twice, since the bindings of
the host may be set up after the first time. -/
def ifaceConfRead (name : Name) : Idbm (Except Int (Field → Val)) :=
  match defaultIfaces.find? (·.1 = name) with
  | some (_, transport) =>
    return .ok (Function.update (IdbmRecord.ifaceAlloc name) .ifaceTransportName (.text transport))
  | none => do
    match ← locked (.error iscsiErrIdbm) (confRead name) with
    | .ok iface => return .ok iface
    | .error _ => locked (.error iscsiErrIdbm) (confRead name)

def ifaceText (iface : Field → Val) : List UInt8 :=
  IdbmRecord.idbmPrint (IdbmRecord.idbmRecinfoIface (IdbmRecord.ifaceGetIptype iface)) iface

/-- The file is opened, and so emptied, before the lock is taken. -/
def ifaceConfWrite (iface : Field → Val) : Idbm Int := do
  if ifaceMatchDefault (str iface .ifaceName) then return iscsiErrInval
  else
    let conf := ifaceConf (str iface .ifaceName)
    if ← create conf then
      if ← idbmLock then
        print conf (ifaceText iface)
        idbmUnlock
        return 0
      else return iscsiErrIdbm
    else return iscsiErrIdbm

def idbmVerifyParam (table : List Field) (key : List UInt8) : Bool :=
  match IdbmRecord.tools.find table key with
  | some .ifaceName => false
  | some _ => true
  | none => false

/-- The parameters in their order; an unknown key or option is an error. -/
def updateParams (table : List Field) (params : List (List UInt8 × List UInt8))
    (iface : Field → Val) : Option (Field → Val) :=
  params.foldlM (fun r kv => IdbmRecord.tools.assign table r kv.1 kv.2) iface

def ifaceConfUpdate (params : List (List UInt8 × List UInt8)) (iface : Field → Val) : Idbm Int :=
  let table := IdbmRecord.idbmRecinfoIface (IdbmRecord.ifaceGetIptype iface)
  if ifaceMatchDefault (str iface .ifaceName) then return iscsiErrInval
  else if params.all (idbmVerifyParam table ·.1) then
    match updateParams table params iface with
    | some iface => ifaceConfWrite iface
    | none => return iscsiErrInval
  else return iscsiErrInval

end IfaceStore
