import OpenIscsi.IdbmRoundTrip

/-!
# The record reader of the library

`libopeniscsiusr` has its own table of keys and its own reader. The table differs from the
one of the tools in the width of a few numbers and in the keys of an IPv6 interface, the
address family is taken from the name of the file, and a key or an option that is not in
the table is an error.
-/

namespace IdbmRecord

open CString RecordFile List

/-- The keys that the library reads into 64 bits. -/
def wideKeys : List Field :=
  [.sessionInitialLoginRetryMax, .sessionXmitThreadPriority, .sessionNrSessions,
   .sessionTimeoReplacementTimeout, .sessionErrTimeoAbortTimeout, .sessionErrTimeoLuResetTimeout,
   .sessionErrTimeoTgtResetTimeout, .sessionErrTimeoHostResetTimeout,
   .sessionIscsiFirstBurstLength, .sessionIscsiMaxBurstLength, .sessionIscsiDefaultTime2Retain,
   .sessionIscsiDefaultTime2Wait, .sessionIscsiMaxConnections, .sessionIscsiMaxOutstandingR2T,
   .sessionIscsiERL, .sessionReopenMax, .connTcpWindowSize, .connTcpTypeOfService,
   .connTimeoLogoutTimeout, .connTimeoLoginTimeout, .connTimeoAuthTimeout,
   .connTimeoNoopOutInterval, .connTimeoNoopOutTimeout, .connIscsiMaxXmitDataSegmentLength,
   .connIscsiMaxRecvDataSegmentLength]

/-- How the library parses the value of a key. -/
def Field.libKind (f : Field) : Kind :=
  match f with
  | .name => .str 256
  | .ifaceIfaceNum | .sessionInitialCmdsn | .sessionAuthPasswordLength
  | .sessionAuthPasswordInLength => .uint 32
  | .sessionCmdsMax | .sessionQueueDepth => .uint 16
  | f => if f ∈ wideKeys then .int64 else f.kind

def library : Format Field where
  key := Field.key
  kind := Field.libKind
  lengthOf := Field.lengthOf

/-- The keys of an interface stand in the order of an interface record. -/
def idbmNodeRecLink (t : IfaceType) : List Field :=
  [.name, .tpgt, .startup, .leadingLogin] ++ idbmRecinfoIface t ++ nodeTail

inductive LibError where
  | inval | bug
  deriving DecidableEq, Repr

/-- One line of a file: an unknown key is invalid, an unknown option is taken for a bug. -/
def libRecUpdateParam (table : List Field) (r : Field → Val) (kv : List UInt8 × List UInt8) :
    Except LibError (Field → Val) :=
  match library.assign table r kv.1 kv.2 with
  | some r => .ok r
  | none => .error (if (library.find table kv.1).isNone then .inval else .bug)

def libRecsRead (table : List Field) (r : Field → Val) (file : List UInt8) :
    Except LibError (Field → Val) :=
  (assignments bufferLimit file).foldlM (libRecUpdateParam table) r

def ifaceIsValid (r : Field → Val) : Bool :=
  str r .ifaceName != [] && str r .ifaceTransportName != []

/-- The record before a file is read: the defaults of the tools, with the name of the file. -/
def defaultNode (ifaceName : Option (List UInt8)) : Field → Val :=
  match ifaceName with
  | none => idbmNodeSetupDefaults
  | some name => Function.update idbmNodeSetupDefaults .ifaceName (.text (name.take 64))

/-- The address family is the one in the name. -/
def libIptype (r : Field → Val) : IfaceType :=
  if namesIpv6 (str r .ifaceName) then .ipv6 else .ipv4

def idbmNodeGet (ifaceName : Option (List UInt8)) (file : List UInt8) :
    Except LibError (Option (Field → Val)) :=
  let node := defaultNode ifaceName
  match libRecsRead (idbmNodeRecLink (libIptype node)) node file with
  | .error e => .error e
  | .ok r => .ok (if ifaceIsValid r then some r else none)

section Read

variable {ifaceName : Option (List UInt8)} (file : List UInt8)

end Read

/-! ### The two readers -/

/-- The number of a member. -/
def num (r : Field → Val) (f : Field) : Int :=
  match r f with
  | .num n => n
  | _ => 0

section Tame

variable (r : Rec)
  (h : Tame (idbmRecinfoNode (ifaceGetIptype r.val)) idbmNodeSetupDefaults r.val)

include h

section Shared

variable {ifaceName : Option (List UInt8)} {f : Field}

end Shared

end Tame

end IdbmRecord
