import OpenIscsi.SendTargetsRecord
import OpenIscsi.LoginKeys

/-!
# Target addresses

The grammar `host[:port][,tag]` that the comment in `add_target_record` lists, and
what the two parsers of such a text make of it: the `TargetAddress=` case of
`add_target_record`, and `iscsi_update_address`.
-/

namespace TargetAddresses

open CString SendTargets SendTargetsRecord LoginKeys List

/-! ## The grammar -/

/-- A byte that separates the parts of an address, or ends the text. -/
def isMark (b : UInt8) : Bool := b = 0 || b = 44 || b = 91 || b = 93

inductive Host where
  | name (text : List UInt8) (plain : ∀ b ∈ text, isMark b = false ∧ b ≠ 58) (ne : text ≠ [])
    (fits : text.length < niMaxhost)
  | ipv6 (text : List UInt8) (plain : ∀ b ∈ text, isMark b = false) (colon : 58 ∈ text)
    (fits : text.length < niMaxhost)

/-- The host without brackets. -/
def Host.address : Host → List UInt8
  | .name text .. => text
  | .ipv6 text .. => text

/-- An IPv6 address stands in brackets. -/
def Host.text : Host → List UInt8
  | .name text .. => text
  | .ipv6 text .. => 91 :: text ++ [93]

@[simp] theorem Host.address_name (text : List UInt8) (plain ne fits) :
    Host.address (.name text plain ne fits) = text := rfl

@[simp] theorem Host.address_ipv6 (text : List UInt8) (plain colon fits) :
    Host.address (.ipv6 text plain colon fits) = text := rfl

@[simp] theorem Host.text_name (text : List UInt8) (plain ne fits) :
    Host.text (.name text plain ne fits) = text := rfl

@[simp] theorem Host.text_ipv6 (text : List UInt8) (plain colon fits) :
    Host.text (.ipv6 text plain colon fits) = 91 :: text ++ [93] := rfl

structure Address where
  host : Host
  port : Option (Fin 65536)
  tag : Option (Fin 65536)

/-- A number behind its separator. -/
def field (sep : UInt8) : Option (Fin 65536) → List UInt8
  | some n => sep :: decimal n
  | none => []

def Address.text (a : Address) : List UInt8 := a.host.text ++ field 58 a.port ++ field 44 a.tag

def Address.portNumber (a : Address) : Nat := a.port.elim 3260 Fin.val

/-! ## What the parsers are for -/

def Address.record (a : Address) (drec : DiscoveryRec) (tname : List UInt8) : NodeRec where
  discType := drec.type
  discPort := drec.port
  discAddress := cstr drec.address
  name := (strlcpy tname targetNameMaxlen).1
  tpgt := a.tag.elim portalGroupTagUnknown (fun n => (n.val : Int))
  port := a.portNumber
  address := a.host.address

def adding (a : Address) (env : Env) (drec : DiscoveryRec) (pre post : List UInt8) (name : Nat)
    (recs : List NodeRec) : Outcome :=
  addAddress env drec (pre ++ (ascii "TargetAddress=" ++ a.text ++ 0 :: post)) name pre.length recs

def Recorded (a : Address) : Prop :=
  ∀ (env : Env) (drec : DiscoveryRec) (pre post : List UInt8) (name : Nat) (tname : List UInt8)
    (recs : List NodeRec), (∀ n, env.calloc n = true) →
    (∀ tail, stringAt (pre ++ tail) name = tname) →
    (adding a env drec pre post name recs).ok =
        env.resolves a.host.address (some (decimal a.portNumber)) ∧
      (adding a env drec pre post name recs).recs =
        if (adding a env drec pre post name recs).ok then recs ++ [a.record drec tname] else recs

def Updated (a : Address) : Prop :=
  ∀ (env : RspEnv) (s : LoginSession), iscsiUpdateAddress env s a.text =
    if env.resolveAddress a.host.address (decimal a.portNumber) then
      some { s with
        saddr := (a.host.address, decimal a.portNumber)
        portalGroupTag := a.tag.elim s.portalGroupTag (fun n => (n.val : Int)) }
    else none

/-! ## Cutting a text -/

theorem not_mem_field {c sep : UInt8} (hc : c.toNat < 48 ∨ 57 < c.toNat) (hne : c ≠ sep)
    (n : Option (Fin 65536)) : c ∉ field sep n := by
  cases n with
  | none => simp [field]
  | some n =>
    intro h
    rcases mem_cons.mp h with h | h
    · exact hne h
    · have := decimal_digits n c h
      omega

/-- A number behind the last separator is cut off. -/
theorem splitOff_some (sep : UInt8) (hsep : sep.toNat < 48 ∨ 57 < sep.toNat) (front : List UInt8)
    (n : Fin 65536) : splitOff sep (front ++ field sep (some n)) = (front, some (decimal n)) := by
  have hfree : sep ∉ decimal n := by
    intro h
    have := decimal_digits n sep h
    omega
  rw [splitOff, field, splitLast_append front hfree]

theorem splitOff_none {sep : UInt8} {front : List UInt8} (h : sep ∉ front) :
    splitOff sep front = (front, none) := by
  rw [splitOff, splitLast_of_not_mem h]

theorem splitOff_field (sep : UInt8) (hsep : sep.toNat < 48 ∨ 57 < sep.toNat) {front : List UInt8}
    (n : Option (Fin 65536)) (h : n ≠ none ∨ sep ∉ front) :
    splitOff sep (front ++ field sep n) = (front, n.map (fun n : Fin 65536 => decimal n.val)) := by
  cases n with
  | some n => exact splitOff_some sep hsep front n
  | none =>
    rw [field, append_nil]
    exact splitOff_none (h.resolve_left (by simp))

/-! ## The host -/

theorem Host.plain (h : Host) : ∀ b ∈ h.address, isMark b = false := by
  cases h with
  | name text plain => exact fun b hb => (plain b hb).1
  | ipv6 text plain => exact plain

theorem Host.fits (h : Host) : h.address.length < niMaxhost := by
  cases h with
  | name text plain ne fits => exact fits
  | ipv6 text plain colon fits => exact fits

theorem Host.nulFree (h : Host) : NulFree h.address := by
  rintro b hb rfl
  have hmark := h.plain 0 hb
  revert hmark
  decide

theorem Host.no_comma (h : Host) : 44 ∉ h.text := by
  have hplain := h.plain
  cases h with
  | name text plain =>
    intro hb
    have hmark := hplain 44 hb
    revert hmark
    decide
  | ipv6 text plain =>
    intro hb
    rcases mem_append.mp hb with hb | hb
    · rcases mem_cons.mp hb with hb | hb
      · revert hb
        decide
      · have hmark := hplain 44 hb
        revert hmark
        decide
    · revert hb
      decide

/-- A text of an address has no NUL. -/
theorem Address.nulFree (a : Address) : NulFree a.text := by
  intro b hb hzero
  subst hzero
  have hhost := a.host.nulFree
  rcases mem_append.mp hb with hb | hb
  · rcases mem_append.mp hb with hb | hb
    · cases hcase : a.host with
      | name text plain =>
        rw [hcase] at hhost hb
        exact hhost 0 hb rfl
      | ipv6 text plain =>
        rw [hcase] at hhost hb
        rcases mem_append.mp hb with hb | hb
        · rcases mem_cons.mp hb with hb | hb
          · revert hb
            decide
          · exact hhost 0 hb rfl
        · revert hb
          decide
    · exact not_mem_field (by decide) (by decide) _ hb
  · exact not_mem_field (by decide) (by decide) _ hb

/-- The tag is cut off first. -/
theorem splitOff_tag (key : List UInt8) (hkey : 44 ∉ key) (a : Address) :
    splitOff 44 (key ++ a.text) =
      (key ++ (a.host.text ++ field 58 a.port), a.tag.map (fun n : Fin 65536 => decimal n.val)) := by
  have htext : key ++ a.text = key ++ (a.host.text ++ field 58 a.port) ++ field 44 a.tag := by
    simp [Address.text]
  rw [htext]
  refine splitOff_field 44 (by decide) a.tag (.inr ?_)
  intro h
  rcases mem_append.mp h with h | h
  · exact hkey h
  · rcases mem_append.mp h with h | h
    · exact a.host.no_comma h
    · exact not_mem_field (by decide) (by decide) _ h

def PortLast (a : Address) : Prop := a.port ≠ none ∨ 58 ∉ a.host.text

theorem splitOff_port (key : List UInt8) (hkey : 58 ∉ key) (a : Address) (h : PortLast a) :
    splitOff 58 (key ++ (a.host.text ++ field 58 a.port)) =
      (key ++ a.host.text, a.port.map (fun n : Fin 65536 => decimal n.val)) := by
  rw [← append_assoc]
  refine splitOff_field 58 (by decide) a.port (h.imp_right fun hfree hmem => ?_)
  exact (mem_append.mp hmem).elim hkey hfree

/-- Without a port the last colon is one of the IPv6 address. -/
theorem splitOff_inside (key before after : List UInt8) (hafter : 58 ∉ after) :
    splitOff 58 (key ++ (91 :: (before ++ 58 :: after) ++ [93] ++ [])) =
      (key ++ 91 :: before, some (after ++ [93])) := by
  have htext : key ++ (91 :: (before ++ 58 :: after) ++ [93] ++ []) =
      (key ++ 91 :: before) ++ 58 :: (after ++ [93]) := by simp
  have hfree : 58 ∉ after ++ [93] := by
    intro h
    rcases mem_append.mp h with h | h
    · exact hafter h
    · revert h
      decide
  rw [htext, splitOff, splitLast_append _ hfree]

/-! ## The two parsers -/

theorem key_length : (ascii "TargetAddress=").length = 14 := by decide

/-- `add_target_record` reads the parts, when the last colon is the one of the port. -/
theorem parseAddress_text (a : Address) (h : PortLast a) :
    parseAddress (ascii "TargetAddress=" ++ a.text) =
      ⟨a.host.address, a.port.map (fun n : Fin 65536 => decimal n.val), a.tag.map (fun n : Fin 65536 => decimal n.val)⟩ := by
  have hcomma : 44 ∉ ascii "TargetAddress=" := by decide +kernel
  have hcolon : 58 ∉ ascii "TargetAddress=" := by decide +kernel
  rw [parseAddress, splitOff_tag _ hcomma a]
  dsimp only
  rw [splitOff_port _ hcolon a h]
  dsimp only
  rw [drop_left' key_length]
  congr 1
  cases hcase : a.host with
  | name text plain ne =>
    cases text with
    | nil => exact absurd rfl ne
    | cons b text =>
      have hb := (plain b (by simp)).1
      rw [if_neg]
      · rfl
      · intro h0
        obtain rfl := Option.some.inj h0
        revert hb
        decide
  | ipv6 text plain colon fits =>
    have hclose : ascii "TargetAddress=" ++ (91 :: text ++ [93]) =
        (ascii "TargetAddress=" ++ 91 :: text) ++ 93 :: [] := by simp
    have hopen : ascii "TargetAddress=" ++ 91 :: text = (ascii "TargetAddress=" ++ [91]) ++ text := by
      simp
    have hhead : (91 :: text ++ [93]).head? = some 91 := rfl
    rw [Host.text_ipv6, Host.address_ipv6, if_pos hhead, hclose, splitOff,
      splitLast_append _ (by simp)]
    dsimp only
    rw [hopen, drop_left' (by simp [key_length])]

/-- Without a port `add_target_record` takes an IPv6 address apart. -/
theorem parseAddress_ipv6 {a : Address} {text before after : List UInt8}
    {plain : ∀ b ∈ text, isMark b = false} {colon : 58 ∈ text} {fits : text.length < niMaxhost}
    (hhost : a.host = .ipv6 text plain colon fits) (hport : a.port = none)
    (htext : text = before ++ 58 :: after) (hafter : 58 ∉ after) :
    (parseAddress (ascii "TargetAddress=" ++ a.text)).address = before := by
  have hcomma : 44 ∉ ascii "TargetAddress=" := by decide +kernel
  have hclose : 93 ∉ ascii "TargetAddress=" ++ 91 :: before := by
    intro h
    rcases mem_append.mp h with h | h
    · revert h
      decide +kernel
    · rcases mem_cons.mp h with h | h
      · revert h
        decide
      · have hmark := plain 93 (by rw [htext]; simp [h])
        revert hmark
        decide
  have hopen : ascii "TargetAddress=" ++ 91 :: before = (ascii "TargetAddress=" ++ [91]) ++ before := by
    simp
  have hhead : (91 :: before).head? = some (91 : UInt8) := rfl
  rw [parseAddress, splitOff_tag _ hcomma a, hhost, hport, Host.text_ipv6, htext, field]
  dsimp only
  rw [splitOff_inside _ _ _ hafter]
  dsimp only
  rw [drop_left' key_length, if_pos hhead, splitOff_none hclose, hopen,
    drop_left' (by simp [key_length])]

theorem splitTag_eq (value : List UInt8) : splitTag value = splitOff 44 value := rfl

theorem splitPort_eq (address : List UInt8) :
    splitPort address =
      ((splitOff 58 address).1, ((splitOff 58 address).2).getD (ascii "3260")) := by
  rw [splitPort, splitOff]
  cases splitLast 58 address with
  | none => rfl
  | some parts => rfl

theorem addressHost_text (h : Host) : addressHost h.text = some h.address := by
  cases h with
  | name text plain ne =>
    cases text with
    | nil => exact absurd rfl ne
    | cons b text =>
      have hb : b ≠ 91 := by
        rintro rfl
        have hmark := (plain 91 (by simp)).1
        revert hmark
        decide
      rw [Host.text_name, Host.address_name, addressHost]
      exact fun rest h0 => hb (List.cons.inj h0).1
  | ipv6 text plain =>
    have hstop : (text ++ [93]).takeWhile (fun b => b != 93) = text := by
      rw [takeWhile_append_of_pos]
      · simp
      · intro b hb
        have hmark := plain b hb
        rw [bne_iff_ne]
        rintro rfl
        revert hmark
        decide
    rw [Host.text_ipv6, Host.address_ipv6, cons_append, addressHost, if_pos (by simp), hstop]

theorem portText (a : Address) :
    (a.port.map (fun n : Fin 65536 => decimal n.val)).getD (ascii "3260") = decimal a.portNumber := by
  cases hport : a.port with
  | none =>
    rw [Address.portNumber, hport]
    decide +kernel
  | some n =>
    rw [Address.portNumber, hport]
    rfl

theorem atoi_field (n : Fin 65536) : atoi (decimal n) = (n.val : Int) :=
  atoi_decimal (by omega)

/-- `iscsi_update_address` reads the parts, when the last colon is the one of the port. -/
theorem updated_of_portLast (a : Address) (h : PortLast a) : Updated a := by
  intro env s
  have htag := splitOff_tag [] (by simp) a
  have hport := splitOff_port [] (by simp) a h
  simp only [nil_append] at htag hport
  unfold iscsiUpdateAddress
  dsimp only
  rw [splitTag_eq, htag, splitPort_eq, hport]
  dsimp only
  rw [addressHost_text, portText]
  dsimp only
  cases a.tag with
  | none => rfl
  | some n =>
    rw [Option.map_some, Option.elim_some, ← atoi_field n]

theorem numberOr_field (unset : Int) (n : Option (Fin 65536)) :
    numberOr unset (n.map (fun n : Fin 65536 => decimal n.val)) =
      n.elim unset (fun n => (n.val : Int)) := by
  cases n with
  | none => rfl
  | some n =>
    rw [Option.map_some, numberOr, if_neg (decimal_ne_nil n.val), atoi_field]
    rfl

theorem portNumber_eq (a : Address) :
    (a.portNumber : Int) = a.port.elim iscsiListenPort (fun n => (n.val : Int)) := by
  rw [Address.portNumber]
  cases a.port with
  | none => rfl
  | some n => rfl

theorem addressRec_text (a : Address) (h : PortLast a) (drec : DiscoveryRec) (tname : List UInt8) :
    addressRec drec tname (ascii "TargetAddress=" ++ a.text) = a.record drec tname := by
  have haddr : (strlcpy a.host.address niMaxhost).1 = a.host.address := by
    have hcstr := cstr_of_nulFree _ a.host.nulFree
    rw [strlcpy_fits _ _ (by rw [hcstr]; exact a.host.fits), hcstr]
  rw [addressRec, parseAddress_text a h, portalRec, numberOr_field, numberOr_field, haddr,
    Address.record, portNumber_eq]

section Adding

variable (a : Address) (drec : DiscoveryRec) (pre post : List UInt8) (name : Nat)
variable {tname : List UInt8} (recs : List NodeRec)

variable {env : Env} (hm : ∀ n, env.calloc n = true)
variable (hname : ∀ tail, stringAt (pre ++ tail) name = tname)
include hm hname

theorem adding_eq :
    (adding a env drec pre post name recs).ok =
      lineResolves env (ascii "TargetAddress=" ++ a.text) ∧
    (adding a env drec pre post name recs).recs =
      if lineResolves env (ascii "TargetAddress=" ++ a.text) then
        recs ++ [addressRec drec tname (ascii "TargetAddress=" ++ a.text)]
      else recs := by
  have hkeyFree : NulFree (ascii "TargetAddress=") := by decide +kernel
  have hfree : NulFree (ascii "TargetAddress=" ++ a.text) := by
    intro b hb
    exact (mem_append.mp hb).elim (hkeyFree b) (a.nulFree b)
  have hkey : isTargetAddress (ascii "TargetAddress=" ++ a.text) = true :=
    List.isPrefixOf_iff_prefix.mpr ( prefix_append _ _)
  obtain ⟨w, hw⟩ := addAddress_string pre _ post hfree hkey name tname hname recs hm
  rw [adding, hw.2]
  exact ⟨rfl, rfl⟩

/-- What `add_target_record` does with an address whose last colon is the one of its port. -/
theorem adding_portLast (h : PortLast a) :
    (adding a env drec pre post name recs).ok =
      env.resolves a.host.address (a.port.map (fun n : Fin 65536 => decimal n.val)) ∧
    (adding a env drec pre post name recs).recs =
      if (adding a env drec pre post name recs).ok then recs ++ [a.record drec tname] else recs := by
  obtain ⟨hok, hrecs⟩ := adding_eq a drec pre post name recs hm hname
  rw [hrecs, hok, lineResolves, parseAddress_text a h, addressRec_text a h]
  exact ⟨rfl, rfl⟩

end Adding

/-- With a port both parsers are right. -/
theorem recorded_of_port (a : Address) (h : a.port ≠ none) : Recorded a := by
  intro env drec pre post name tname recs hm hname
  obtain ⟨hok, hrecs⟩ := adding_portLast a drec pre post name recs hm hname (.inl h)
  refine ⟨?_, hrecs⟩
  obtain ⟨n, hn⟩ := Option.ne_none_iff_exists'.mp h
  rw [Address.portNumber, hn]
  rw [hn] at hok
  exact hok

def knows (host port : List UInt8) : Env :=
  ⟨fun address p => address = host ∧ p = some port, fun _ => true⟩

theorem knows_eq_true {host port address : List UInt8} {p : Option (List UInt8)} :
    (knows host port).resolves address p = true ↔ address = host ∧ p = some port := by
  simp [knows]

/-- Without a port `add_target_record` does not ask for the host and the default port. -/
theorem not_asked (a : Address) (h : a.port = none) (port : List UInt8) :
    ¬ ((parseAddress (ascii "TargetAddress=" ++ a.text)).address = a.host.address ∧
      (parseAddress (ascii "TargetAddress=" ++ a.text)).port = some port) := by
  rintro ⟨haddr, hport⟩
  cases hcase : a.host with
  | name text plain ne fits =>
    -- the port is a null pointer
    have hlast : PortLast a := by
      right
      rw [hcase]
      exact fun hmem => (plain 58 hmem).2 rfl
    rw [parseAddress_text a hlast, h] at hport
    cases hport
  | ipv6 text plain colon fits =>
    -- the address ends at its last colon
    obtain ⟨before, after, htext, hafter⟩ := exists_last colon
    rw [parseAddress_ipv6 hcase h htext hafter, hcase, Host.address_ipv6, htext] at haddr
    have hlen := congrArg List.length haddr
    simp only [length_append, length_cons] at hlen
    omega

theorem not_recorded (a : Address) (h : a.port = none) : ¬ Recorded a := by
  intro hrec
  obtain ⟨env, henv⟩ : ∃ env, env = knows a.host.address (decimal a.portNumber) := ⟨_, rfl⟩
  have hm : ∀ n, env.calloc n = true := by
    rw [henv]
    exact fun _ => rfl
  have hname : ∀ tail, stringAt ([0] ++ tail) 0 = [] := fun _ => rfl
  obtain ⟨hok, -⟩ := hrec env ⟨.sendtargets, [], 3260⟩ [0] [] 0 [] [] hm hname
  rw [(adding_eq a _ _ _ _ _ hm hname).1, lineResolves, henv,
    knows_eq_true.mpr ⟨rfl, rfl⟩] at hok
  exact not_asked a h _ (knows_eq_true.mp hok)

/-- Both parsers read an address as the grammar says if and only if it has a port. -/
theorem addresses_iff (a : Address) : (Recorded a ∧ Updated a) ↔ a.port ≠ none := by
  constructor
  · rintro ⟨h, -⟩ hnone
    exact not_recorded a hnone h
  · intro h
    exact ⟨recorded_of_port a h, updated_of_portLast a (.inl h)⟩

def linkLocal : Address :=
  ⟨.ipv6 (ascii "fe80::1") (by decide +kernel) (by decide +kernel) (by decide +kernel), none, none⟩

/-- The last colon of the address is taken for the one of a port. -/
theorem linkLocal_cut :
    parseAddress (ascii "TargetAddress=" ++ linkLocal.text) = ⟨ascii "fe80:", some (ascii "1]"), none⟩ ∧
      ¬ Recorded linkLocal ∧ ¬ Updated linkLocal := by
  refine ⟨by decide +kernel, not_recorded linkLocal rfl, ?_⟩
  intro h
  have hok := h ⟨⟨true, true, true, none, none⟩, fun _ _ => true⟩ {}
  have hrefused : addressHost (splitPort (splitTag linkLocal.text).1).1 = none := by decide +kernel
  rw [iscsiUpdateAddress] at hok
  simp only [hrefused, if_true] at hok
  cases hok

end TargetAddresses
