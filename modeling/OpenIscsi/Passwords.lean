import OpenIscsi.IdbmRoundTrip
import OpenIscsi.Lib.LengthFields
import OpenIscsi.SendTargets

/-! # Passwords and their lengths

`idbm_rec_update_param` of `usr/idbm.c` keeps the length of a password in a key of its own, and
`iscsi_setup_authentication` of `usr/initiator_common.c` copies that many bytes. -/

namespace Passwords

open CString RecordFile LengthFields
open IdbmRecord (Field IfaceType tools idbmRecinfoNode idbmNodeSetupDefaults chapAlgs authMethods
  noYes)
open SendTargets (DiscoveryType)

/-! ### Discovery records -/

/-- The keys of a discovery record. -/
inductive DiscField where
  | startup | type | address | port | authmethod | username | password | passwordLength
  | usernameIn | passwordIn | passwordInLength | chapAlgs | loginTimeout | useDiscoveryd
  | discoverydPollInval | reopenMax | authTimeout | activeTimeout | maxRecvDataSegmentLength
  | isnsUseDiscoveryd | isnsDiscoverydPollInval
  deriving DecidableEq, Repr

def DiscField.key : DiscField → List UInt8
  | .startup => ascii "discovery.startup"
  | .type => ascii "discovery.type"
  | .address => ascii "discovery.sendtargets.address"
  | .port => ascii "discovery.sendtargets.port"
  | .authmethod => ascii "discovery.sendtargets.auth.authmethod"
  | .username => ascii "discovery.sendtargets.auth.username"
  | .password => ascii "discovery.sendtargets.auth.password"
  | .passwordLength => ascii "discovery.sendtargets.auth.password_length"
  | .usernameIn => ascii "discovery.sendtargets.auth.username_in"
  | .passwordIn => ascii "discovery.sendtargets.auth.password_in"
  | .passwordInLength => ascii "discovery.sendtargets.auth.password_in_length"
  | .chapAlgs => ascii "node.session.auth.chap_algs"
  | .loginTimeout => ascii "discovery.sendtargets.timeo.login_timeout"
  | .useDiscoveryd => ascii "discovery.sendtargets.use_discoveryd"
  | .discoverydPollInval => ascii "discovery.sendtargets.discoveryd_poll_inval"
  | .reopenMax => ascii "discovery.sendtargets.reopen_max"
  | .authTimeout => ascii "discovery.sendtargets.timeo.auth_timeout"
  | .activeTimeout => ascii "discovery.sendtargets.timeo.active_timeout"
  | .maxRecvDataSegmentLength => ascii "discovery.sendtargets.iscsi.MaxRecvDataSegmentLength"
  | .isnsUseDiscoveryd => ascii "discovery.isns.use_discoveryd"
  | .isnsDiscoverydPollInval => ascii "discovery.isns.discoveryd_poll_inval"

def discStartups : List (List UInt8) := [ascii "manual", ascii "automatic"]

/-- The names of the types in a discovery record, one of which differs from a node record. -/
def discTypes : List (List UInt8) :=
  [ascii "sendtargets", ascii "isns", ascii "offload_send_targets", ascii "slp", ascii "static",
   ascii "fw"]

def authStrMaxLen : Nat := 256

def DiscField.kind : DiscField → Kind
  | .startup => .opts discStartups
  | .type => .opts discTypes
  | .address => .str 1025
  | .authmethod => .opts authMethods
  | .username | .password | .usernameIn | .passwordIn => .str authStrMaxLen
  | .chapAlgs => .list IdbmRecord.chapAlgs 5
  | .useDiscoveryd | .isnsUseDiscoveryd => .opts noYes
  | .port | .passwordLength | .passwordInLength | .loginTimeout | .discoverydPollInval
  | .reopenMax | .authTimeout | .activeTimeout | .maxRecvDataSegmentLength
  | .isnsDiscoverydPollInval => .int

def DiscField.lengthOf : DiscField → Option DiscField
  | .password => some .passwordLength
  | .passwordIn => some .passwordInLength
  | _ => none

def discovery : Format DiscField where
  key := DiscField.key
  kind := DiscField.kind
  lengthOf := DiscField.lengthOf

def idbmRecinfoDiscovery : DiscoveryType → List DiscField
  | .sendtargets =>
    [.startup, .type, .address, .port, .authmethod, .username, .password, .passwordLength,
     .usernameIn, .passwordIn, .passwordInLength, .chapAlgs, .loginTimeout, .useDiscoveryd,
     .discoverydPollInval, .reopenMax, .authTimeout, .activeTimeout, .maxRecvDataSegmentLength]
  | .isns => [.startup, .type, .address, .port, .isnsUseDiscoveryd, .isnsDiscoverydPollInval]
  | _ => [.startup, .type]

/-- A member after `memset`. -/
def DiscField.zero (f : DiscField) : Val :=
  match f.kind with
  | .str _ => .text []
  | .list _ _ => .nums []
  | _ => .num 0

def idbmDiscoverySetupDefaults (t : DiscoveryType) (f : DiscField) : Val :=
  match t, f with
  | .sendtargets, .discoverydPollInval => .num 30
  | .sendtargets, .reopenMax => .num 5
  | .sendtargets, .chapAlgs => .nums [5]
  | .sendtargets, .loginTimeout => .num 15
  | .sendtargets, .authTimeout => .num 45
  | .sendtargets, .activeTimeout => .num 30
  | .sendtargets, .maxRecvDataSegmentLength => .num 32768
  | .isns, .type => .num 1
  | .isns, .isnsDiscoverydPollInval => .num (-1)
  | .offloadSendtargets, .type => .num 2
  | .slp, .type => .num 3
  | .static, .type => .num 4
  | .fw, .type => .num 5
  | _, f => f.zero

/-! ### Updates -/

def updateNode (t : IfaceType) : (Field → Val) → List UInt8 × List UInt8 → Field → Val :=
  step tools (idbmRecinfoNode t)

def updateDisc (t : DiscoveryType) :
    (DiscField → Val) → List UInt8 × List UInt8 → DiscField → Val :=
  step discovery (idbmRecinfoDiscovery t)

/-! ### Authentication -/

/-- `struct iscsi_auth_config`; the strings are arrays of `AUTH_STR_MAX_LEN` bytes. -/
structure AuthConfig where
  username : List UInt8
  password : List UInt8
  passwordLength : Nat
  usernameIn : List UInt8
  passwordIn : List UInt8
  passwordInLength : Nat
  chapAlgs : List Nat
  deriving DecidableEq, Repr

/-- What `iscsi_setup_authentication` sets in a session. -/
structure SessionAuth where
  username : List UInt8
  password : List UInt8
  passwordLength : Int
  usernameIn : List UInt8
  passwordIn : List UInt8
  passwordInLength : Int
  chapAlgs : List Nat
  bidirectionalAuth : Bool
  numAuthBuffers : Nat
  deriving DecidableEq, Repr

/-- `memcpy` between arrays, `none` outside their bounds. -/
def memcpy (dst src : List UInt8) (n : Int) : Option (List UInt8) :=
  let size := (n % 2 ^ 64).toNat
  if size ≤ src.length ∧ size ≤ dst.length then some (src.take size ++ dst.drop size) else none

/-- Nothing is copied for the length 0. -/
def copySecret (dst src : List UInt8) (length : Int) : Option (List UInt8) :=
  if length = 0 then some dst else memcpy dst src length

def einval : Int := 22

/-- Incoming credentials are refused without outgoing ones; the result is `none` when a copy
leaves its arrays. -/
def iscsiSetupAuthentication (session : SessionAuth) (cfg : AuthConfig) :
    Option (Int × SessionAuth) :=
  let bidirectional := cstr cfg.usernameIn ≠ [] ∨ cfg.passwordInLength ≠ 0
  if bidirectional ∧ cfg.passwordLength = 0 then some (einval, session)
  else
    let length := toInt32 cfg.passwordLength
    let lengthIn := toInt32 cfg.passwordInLength
    match copySecret session.password cfg.password length,
        copySecret session.passwordIn cfg.passwordIn lengthIn with
    | some password, some passwordIn =>
      some (0, {
        username := (strlcpy cfg.username authStrMaxLen).1
        password := password
        passwordLength := length
        usernameIn := (strlcpy cfg.usernameIn authStrMaxLen).1
        passwordIn := passwordIn
        passwordInLength := lengthIn
        chapAlgs := cfg.chapAlgs
        bidirectionalAuth := bidirectional
        numAuthBuffers := if length ≠ 0 ∨ lengthIn ≠ 0 then 5 else 0 })
    | _, _ => none

/-- The secret that CHAP is given. -/
def SessionAuth.secret (s : SessionAuth) : List UInt8 := s.password.take s.passwordLength.toNat

def SessionAuth.secretIn (s : SessionAuth) : List UInt8 :=
  s.passwordIn.take s.passwordInLength.toNat

/-- The array holds the string: the bytes behind its NUL may be anything. -/
def HoldsText (array s : List UInt8) : Prop :=
  array.length = authStrMaxLen ∧ ∃ rest, array = s ++ 0 :: rest

/-- The members of a record that make its `struct iscsi_auth_config`. -/
structure Credentials (φ : Type) where
  password : φ
  passwordLength : φ
  passwordIn : φ
  passwordInLength : φ

def nodeCredentials : Credentials Field :=
  ⟨.sessionAuthPassword, .sessionAuthPasswordLength, .sessionAuthPasswordIn,
   .sessionAuthPasswordInLength⟩

def discCredentials : Credentials DiscField :=
  ⟨.password, .passwordLength, .passwordIn, .passwordInLength⟩

section Safety

variable {φ : Type} (c : Credentials φ) (r : φ → Val)

/-- A password and its length, as the memory of the record has them. -/
def HoldsSecret (password passwordLength : φ) (array : List UInt8) (length : Nat) : Prop :=
  (∃ s, r password = .text s ∧ HoldsText array s) ∧
    ∃ n : Int, r passwordLength = .num n ∧ (length : Int) = n % 2 ^ 32

structure HoldsAuth (cfg : AuthConfig) : Prop where
  out : HoldsSecret r c.password c.passwordLength cfg.password cfg.passwordLength
  incoming : HoldsSecret r c.passwordIn c.passwordInLength cfg.passwordIn cfg.passwordInLength

/-- The copies stay within the arrays of the session, and CHAP gets the stored secrets. -/
def Copied : Prop :=
  ∀ (session : SessionAuth) (cfg : AuthConfig), session.password.length = authStrMaxLen →
    session.passwordIn.length = authStrMaxLen → HoldsAuth c r cfg →
    ∃ rc s, iscsiSetupAuthentication session cfg = some (rc, s) ∧
      (rc = 0 → r c.password = .text s.secret ∧ r c.passwordIn = .text s.secretIn)

/-- The lengths are those of the passwords, and so the copies are right. -/
structure Safe : Prop where
  out : Agree c.password c.passwordLength authStrMaxLen r
  incoming : Agree c.passwordIn c.passwordInLength authStrMaxLen r
  copied : Copied c r

end Safety

theorem copySecret_holds {dst array s : List UInt8} (hdst : dst.length = authStrMaxLen)
    (hs : HoldsText array s) (hlen : s.length < authStrMaxLen) :
    ∃ password, copySecret dst array s.length = some password ∧ password.take s.length = s := by
  obtain ⟨harray, rest, rfl⟩ := hs
  by_cases h0 : (s.length : Int) = 0
  · have hnil : s = [] := List.length_eq_zero_iff.1 (by exact_mod_cast h0)
    subst hnil
    exact ⟨dst, if_pos rfl, List.take_zero⟩
  · have hmod : ((s.length : Int) % 2 ^ 64).toNat = s.length := by
      rw [authStrMaxLen] at hlen
      omega
    refine ⟨(s ++ 0 :: rest).take s.length ++ dst.drop s.length, ?_, ?_⟩
    · rw [copySecret, if_neg h0, memcpy, hmod, if_pos ⟨by omega, by omega⟩]
    · rw [List.take_left' rfl, List.take_left' rfl]

section Copies

variable {φ : Type} {c : Credentials φ} {r : φ → Val}

/-- An agreeing length is the length of the string in the array. -/
theorem HoldsSecret.length_eq {password passwordLength : φ} {array : List UInt8} {length : Nat}
    (h : HoldsSecret r password passwordLength array length)
    (ha : Agree password passwordLength authStrMaxLen r) :
    ∃ s, r password = .text s ∧ HoldsText array s ∧ s.length < authStrMaxLen ∧
      length = s.length := by
  obtain ⟨s, hs, hlt, hlen⟩ := ha
  obtain ⟨⟨s', hs', harray⟩, n, hn, hmod⟩ := h
  rw [hs, Val.text.injEq] at hs'
  subst hs'
  rw [hlen, Val.num.injEq] at hn
  subst hn
  refine ⟨s, hs, harray, hlt, ?_⟩
  rw [authStrMaxLen] at hlt
  omega

theorem copied_of_agree (hout : Agree c.password c.passwordLength authStrMaxLen r)
    (hin : Agree c.passwordIn c.passwordInLength authStrMaxLen r) : Copied c r := by
  intro session cfg hsession hsessionIn hcfg
  obtain ⟨s, hs, harray, hlt, hlen⟩ := hcfg.out.length_eq hout
  obtain ⟨t, ht, harrayIn, hltIn, hlenIn⟩ := hcfg.incoming.length_eq hin
  have hbound : ∀ n, n < authStrMaxLen → toInt32 n = n := by
    intro n hn
    exact toInt32_small (Nat.lt_trans hn (by decide))
  obtain ⟨password, hcopy, htake⟩ := copySecret_holds hsession harray hlt
  obtain ⟨passwordIn, hcopyIn, htakeIn⟩ := copySecret_holds hsessionIn harrayIn hltIn
  rw [iscsiSetupAuthentication]
  by_cases hrefused : (cstr cfg.usernameIn ≠ [] ∨ cfg.passwordInLength ≠ 0) ∧ cfg.passwordLength = 0
  · refine ⟨einval, session, if_pos hrefused, fun h => ?_⟩
    cases h
  · rw [if_neg hrefused]
    dsimp only
    rw [hlen, hlenIn, hbound _ hlt, hbound _ hltIn, hcopy, hcopyIn]
    refine ⟨0, _, rfl, fun _ => ?_⟩
    simp only [SessionAuth.secret, SessionAuth.secretIn, Int.toNat_natCast, htake, htakeIn]
    exact ⟨hs, ht⟩

theorem safe_iff : Safe c r ↔ Agree c.password c.passwordLength authStrMaxLen r ∧
    Agree c.passwordIn c.passwordInLength authStrMaxLen r :=
  ⟨fun h => ⟨h.out, h.incoming⟩, fun h => ⟨h.1, h.2, copied_of_agree h.1 h.2⟩⟩

end Copies

/-! ### Runs of updates -/

/-- An update that leaves both lengths right. -/
def BothInStep {φ : Type} (F : Format φ) (c : Credentials φ) (r : φ → Val)
    (kv : List UInt8 × List UInt8) : Prop :=
  InStep F c.password c.passwordLength authStrMaxLen r kv ∧
    InStep F c.passwordIn c.passwordInLength authStrMaxLen r kv

theorem node_measured (t : IfaceType) :
    Measured tools (idbmRecinfoNode t) .sessionAuthPassword .sessionAuthPasswordLength
        authStrMaxLen ∧
      Measured tools (idbmRecinfoNode t) .sessionAuthPasswordIn .sessionAuthPasswordInLength
        authStrMaxLen := by
  refine ⟨⟨?_, ?_, rfl, ?_, rfl, ?_, rfl, rfl⟩, ⟨?_, ?_, rfl, ?_, rfl, ?_, rfl, rfl⟩⟩
  · cases t <;> decide
  · cases t <;> decide
  · intro x hx
    cases x <;> first | rfl | cases hx
  · exact IdbmRecord.plain_of_visible rfl
  · cases t <;> decide
  · cases t <;> decide
  · intro x hx
    cases x <;> first | rfl | cases hx
  · exact IdbmRecord.plain_of_visible rfl

theorem disc_measured :
    Measured discovery (idbmRecinfoDiscovery .sendtargets) .password .passwordLength
        authStrMaxLen ∧
      Measured discovery (idbmRecinfoDiscovery .sendtargets) .passwordIn .passwordInLength
        authStrMaxLen := by
  refine ⟨⟨by decide, by decide, rfl, ?_, rfl, ?_, rfl, rfl⟩,
    ⟨by decide, by decide, rfl, ?_, rfl, ?_, rfl, rfl⟩⟩
  · intro x hx
    cases x <;> first | rfl | cases hx
  · intro x hx
    cases x <;> cases hx
  · intro x hx
    cases x <;> first | rfl | cases hx
  · intro x hx
    cases x <;> cases hx

theorem disc_distinct (t : DiscoveryType) : discovery.Distinct (idbmRecinfoDiscovery t) := by
  cases t <;> (unfold Format.Distinct; decide +kernel)

/-- One update keeps a record safe exactly if it is in step. -/
theorem safe_step_iff {φ : Type} [DecidableEq φ] {F : Format φ} {table : List φ}
    {c : Credentials φ} (hd : F.Distinct table)
    (hout : Measured F table c.password c.passwordLength authStrMaxLen)
    (hin : Measured F table c.passwordIn c.passwordInLength authStrMaxLen) {r : φ → Val}
    (hr : Safe c r) (kv : List UInt8 × List UInt8) :
    Safe c (step F table r kv) ↔ BothInStep F c r kv := by
  rw [safe_iff, hout.agree_step_iff hd (by decide) hr.out,
    hin.agree_step_iff hd (by decide) hr.incoming]
  rfl

/-- A discovery record without password keys stays as it is there. -/
theorem safe_disc_other {d : DiscoveryType} (hd : d ≠ .sendtargets) {r : DiscField → Val}
    (hr : Safe discCredentials r) (kv : List UInt8 × List UInt8) :
    Safe discCredentials (updateDisc d r kv) := by
  have hmem : ∀ f : DiscField, f = .password ∨ f = .passwordLength ∨ f = .passwordIn ∨
      f = .passwordInLength → f ∉ idbmRecinfoDiscovery d := by
    rintro f (rfl | rfl | rfl | rfl) <;> cases d <;> first | exact absurd rfl hd | decide
  obtain ⟨hout, hin⟩ := disc_measured
  obtain ⟨hp, hl⟩ := step_of_not_mem (F := discovery) (hmem _ (.inl rfl))
    (hmem _ (.inr (.inl rfl))) hout.only hout.text_plain r kv
  obtain ⟨hpi, hli⟩ := step_of_not_mem (F := discovery) (hmem _ (.inr (.inr (.inl rfl))))
    (hmem _ (.inr (.inr (.inr rfl)))) hin.only hin.text_plain r kv
  obtain ⟨s, hs, hlt, hlen⟩ := hr.out
  obtain ⟨s', hs', hlt', hlen'⟩ := hr.incoming
  exact safe_iff.2 ⟨⟨s, hp.trans hs, hlt, hl.trans hlen⟩, ⟨s', hpi.trans hs', hlt', hli.trans hlen'⟩⟩

/-- In a run of updates from the defaults, the lengths are right in every state exactly if every
update is in step. -/
theorem password_lengths_iff (t : IfaceType) (d : DiscoveryType)
    (nodeUpdates discUpdates : List (List UInt8 × List UInt8)) :
    ((∀ n, Safe nodeCredentials
          (Runs.run (updateNode t) idbmNodeSetupDefaults (nodeUpdates.take n))) ↔
        Runs.Guarded (updateNode t) (BothInStep tools nodeCredentials) idbmNodeSetupDefaults
          nodeUpdates) ∧
      ((∀ n, Safe discCredentials
          (Runs.run (updateDisc d) (idbmDiscoverySetupDefaults d) (discUpdates.take n))) ↔
        Runs.Guarded (updateDisc d)
          (fun r kv => d = .sendtargets → BothInStep discovery discCredentials r kv)
          (idbmDiscoverySetupDefaults d) discUpdates) := by
  constructor
  · refine Runs.guarded_iff (fun r kv hr => ?_) ?_ nodeUpdates
    · exact safe_step_iff (IdbmRecord.recinfoNode_distinct t) (node_measured t).1
        (node_measured t).2 hr kv
    · exact safe_iff.2 ⟨⟨[], rfl, by decide, rfl⟩, ⟨[], rfl, by decide, rfl⟩⟩
  · refine Runs.guarded_iff (fun r kv hr => ?_) ?_ discUpdates
    · by_cases hd : d = .sendtargets
      · subst hd
        have hstep := safe_step_iff (disc_distinct .sendtargets) disc_measured.1 disc_measured.2
          hr kv
        exact ⟨fun h _ => hstep.1 h, fun h => hstep.2 (h rfl)⟩
      · exact iff_of_true (safe_disc_other hd hr kv) fun h => absurd h hd
    · refine safe_iff.2 ⟨⟨[], ?_, by decide, ?_⟩, ⟨[], ?_, by decide, ?_⟩⟩ <;> cases d <;> rfl

/-- A password that the buffer cuts, while its whole length is stored. -/
def longPassword : List UInt8 := List.replicate 300 97

/-- A password of 300 bytes is cut to 255, but its length is stored as 300. -/
theorem long_password_length :
    ¬ ∀ n, Safe nodeCredentials (Runs.run (updateNode .ipv4) idbmNodeSetupDefaults
      ([(tools.key .sessionAuthPassword, longPassword)].take n)) := by
  intro h
  obtain ⟨s, -, hlt, hlen⟩ := (h 1).out
  rw [List.take_succ_cons, List.take_zero, Runs.run_cons, Runs.run_nil] at hlen
  have hstep := (node_measured .ipv4).1.step_text (IdbmRecord.recinfoNode_distinct .ipv4)
    idbmNodeSetupDefaults longPassword
  have hthree := hlen.symm.trans hstep.2
  rw [longPassword, List.length_replicate, Val.num.injEq] at hthree
  rw [authStrMaxLen] at hlt
  omega

end Passwords
