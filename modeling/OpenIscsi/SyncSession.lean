import OpenIscsi.Lib.CString

/-!
# The record sent for a running session at start-up

`sync_session` and `setup_rec_from_negotiated_values` of `usr/iscsid.c` with the readers
of `usr/iscsi_sysfs.c` and `usr/sysfs.c`. The record is put together from the defaults of
`iscsid.conf`, the record in the database and the attributes in sysfs. Fields of the
record that none of these functions treats on its own are left out.
-/

namespace SyncSession

open CString List

abbrev Bytes := List UInt8

/-- The attributes that are read. -/
inductive Attr where
  | username | usernameIn | password | passwordIn
  | headerDigest | dataDigest | maxXmitDlength | maxRecvDlength
  | firstBurstLen | maxBurstLen | immediateData | initialR2t
  deriving DecidableEq, Repr

/-- The contents of the attribute files of one session, `none` for a file that cannot be
read, and the bytes behind the read buffer on the stack. -/
structure Sysfs where
  attr : Attr → Option Bytes
  stack : Bytes

def authStrMaxLen : Nat := 256

def targetNameMaxlen : Nat := 255

def niMaxhost : Nat := 1025

def newline : UInt8 := 10

/-- `struct iscsi_auth_config`; strings are the bytes before their NUL. -/
structure AuthConfig where
  authmethod : Nat := 0
  username : Bytes := []
  password : Bytes := []
  passwordLength : Nat := 0
  usernameIn : Bytes := []
  passwordIn : Bytes := []
  passwordInLength : Nat := 0
  chapAlgs : List Nat := []
  deriving DecidableEq, Repr

inductive DigestConfig where
  | never
  | always
  | preferOn
  | preferOff
  deriving DecidableEq, Repr

structure Iface where
  name : Bytes := []
  transportName : Bytes := []
  ipaddress : Bytes := []
  iname : Bytes := []
  deriving DecidableEq, Repr

structure NodeRec where
  name : Bytes := []
  tpgt : Int := -1
  sid : Nat := 0
  auth : AuthConfig := {}
  firstBurstLength : Int := 0
  maxBurstLength : Int := 0
  immediateData : Int := 0
  initialR2T : Int := 0
  address : Bytes := []
  port : Int := 3260
  headerDigest : DigestConfig := .never
  dataDigest : DigestConfig := .never
  maxRecvDataSegmentLength : Int := 0
  maxXmitDataSegmentLength : Int := 0
  iface : Iface := {}
  deriving DecidableEq, Repr

/-- `struct session_info`. The address comes through the buffer of one attribute. -/
structure SessionInfo where
  sid : Nat
  targetname : Bytes
  tpgt : Int
  persistentAddress : Bytes
  persistentPort : Int
  iface : Iface
  targetname_nulFree : NulFree targetname
  address_nulFree : NulFree persistentAddress
  address_lt : persistentAddress.length < niMaxhost

def overwrite (dst src : Bytes) : Bytes := if src = [] then dst else src

def defaultIfacename : Bytes := ascii "default"

def ifaceMatch (pattern iface : Iface) : Bool :=
  pattern.name = [] ||
    (pattern.name = iface.name &&
      (pattern.name = defaultIfacename || pattern.transportName = [] ||
        pattern.transportName = iface.transportName))

/-- What sync_session finds around it: the transport's `CAP_FW_DB` and whether it sets
the host address, the result of `iscsi_sysfs_session_user_created`, which names resolve
to one address, the defaults, the record of the database, and sysfs. -/
structure Env where
  transport : Option (Bool × Bool)
  userCreated : Int
  resolveSame : Bytes → Bytes → Bool
  conf : NodeRec
  dbRecord : Option NodeRec
  sys : Sysfs
  info : SessionInfo

def iscsiAddrMatch (env : Env) (address1 address2 : Bytes) : Bool :=
  address1 = [] || address1 = address2 || env.resolveSame address1 address2

def iscsiMatchSession (env : Env) (r : NodeRec) (iface : Iface) : Bool :=
  (r.sid = 0 || env.info.sid = 0 || r.sid = env.info.sid) &&
    (r.name = [] || r.name = env.info.targetname) &&
    iscsiAddrMatch env r.address env.info.persistentAddress &&
    (r.port = -1 || r.port = env.info.persistentPort) && ifaceMatch r.iface iface

/-- The values of the session in the kernel, `none` for a value it does not report. -/
structure Kernel where
  username : Option Bytes
  usernameIn : Option Bytes
  password : Option Bytes
  passwordIn : Option Bytes
  headerDigest : Option Bool
  dataDigest : Option Bool
  maxRecvDataSegmentLength : Option Nat
  maxXmitDataSegmentLength : Option Nat
  firstBurstLength : Option Nat
  maxBurstLength : Option Nat
  immediateData : Option Bool
  initialR2T : Option Bool

/-- The digest that a login offers first. -/
def DigestConfig.first : DigestConfig → Bool
  | .always => true
  | .preferOn => true
  | _ => false

section Fields

variable {sys : Sysfs} {a : Attr}

end Fields

/-- A session without names and secrets that negotiated the values below. -/
def plainKernel (initialR2T : Option Bool) : Kernel where
  username := none
  usernameIn := none
  password := none
  passwordIn := none
  headerDigest := some false
  dataDigest := some false
  maxRecvDataSegmentLength := some 262144
  maxXmitDataSegmentLength := some 8192
  firstBurstLength := some 65536
  maxBurstLength := some 262144
  immediateData := some true
  initialR2T := initialR2T

def showNat (value : Option Nat) : Option Bytes := value.map (fun n => decimal n ++ [newline])

def showText (value : Option Bytes) : Option Bytes :=
  some (value.getD (ascii "(null)") ++ [newline])

/-- The attribute files for the values of the kernel. -/
def Kernel.sysfs (k : Kernel) : Sysfs where
  stack := []
  attr
    | .username => showText k.username
    | .usernameIn => showText k.usernameIn
    | .password => showText k.password
    | .passwordIn => showText k.passwordIn
    | .headerDigest => showNat (k.headerDigest.map Bool.toNat)
    | .dataDigest => showNat (k.dataDigest.map Bool.toNat)
    | .maxXmitDlength => showNat k.maxXmitDataSegmentLength
    | .maxRecvDlength => showNat k.maxRecvDataSegmentLength
    | .firstBurstLen => showNat k.firstBurstLength
    | .maxBurstLen => showNat k.maxBurstLength
    | .immediateData => showNat (k.immediateData.map Bool.toNat)
    | .initialR2t => showNat (k.initialR2T.map Bool.toNat)

def sampleInfo : SessionInfo where
  sid := 1
  targetname := ascii "iqn.2001-04.com.example:disk"
  tpgt := 1
  persistentAddress := ascii "10.0.0.1"
  persistentPort := 3260
  iface := { name := ascii "default", transportName := ascii "tcp", iname := ascii "iqn.host" }
  targetname_nulFree := by decide +kernel
  address_nulFree := by decide +kernel
  address_lt := by decide +kernel

def sampleEnv (username : Bytes) (initialR2T : Option Bool) : Env where
  transport := some (false, false)
  userCreated := 1
  resolveSame := fun _ _ => false
  conf := { auth := { username := username }, iface := { name := ascii "default" } }
  dbRecord := none
  sys := (plainKernel initialR2T).sysfs
  info := sampleInfo

end SyncSession
