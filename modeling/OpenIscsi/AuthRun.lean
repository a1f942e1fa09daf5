import OpenIscsi.AuthApi
import OpenIscsi.Lib.Runs

/-!
# Runs of the client

A peer message is one `acl_recv_begin`, `acl_recv_transit_bit`, a list of
`acl_recv_key_value` calls and `acl_recv_end`. An event is such a message or one
call of `acl_send_*`. The caller is assumed to look at no status, so a run goes
on after a failure.
-/

namespace AuthRun

open CString AuthText AuthKeys AuthClient AuthApi

structure Message where
  transit : Bool
  keys : List (Int × Option (List UInt8))
  env : Env

inductive Event where
  | message (m : Message)
  | sendTransitBit
  | sendKeyVal (keyType : Int) (maxLength : Nat)

def recvKeys (c : IscsiAcl) (keys : List (Int × Option (List UInt8))) : IscsiAcl :=
  keys.foldl (fun c kv => (aclRecvKeyValue c kv.1 kv.2).1) c

def received (c : IscsiAcl) (m : Message) : IscsiAcl :=
  recvKeys (aclRecvTransitBit (aclRecvBegin c).1 m.transit).1 m.keys

def recvMessage (D : Digest) (session : Session) (c : IscsiAcl) (m : Message) :
    IscsiAcl × AuthStatus :=
  aclRecvEnd D m.env session (received c m)

def Event.isSend : Event → Bool
  | .message _ => false
  | _ => true

def Event.apply (D : Digest) (session : Session) (c : IscsiAcl) : Event → IscsiAcl
  | .message m => (recvMessage D session c m).1
  | .sendTransitBit => (aclSendTransitBit c).1
  | .sendKeyVal keyType maxLength => (aclSendKeyVal c keyType maxLength).1

def run (D : Digest) (session : Session) (c : IscsiAcl) (events : List Event) : IscsiAcl :=
  Runs.run (Event.apply D session) c events

end AuthRun
