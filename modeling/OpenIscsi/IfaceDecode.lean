import OpenIscsi.Lib.Numerals

/-!
# The addresses of an interface record in iscsiuio

`decode_cidr` and `decode_iface` of `iscsid_ipc.c`, and `calculate_default_netmask` of
`nic_utils.c`. Addresses and masks are words with the first byte most significant, so that
`htonl` and `ntohl` leave them as they are.
-/

namespace IfaceDecode

open CString Numerals

def niMaxhost : Nat := 1025
def afInet : Nat := 2
def afInet6 : Nat := 10
def ifaceNumInvalid : Nat := 2 ^ 32 - 1

def ipv6AutocfgDhcpv6 : Nat := 1 <<< 0
def ipv6AutocfgNd : Nat := 1 <<< 1
def ipv6AutocfgNotspec : Nat := 1 <<< 6
def ipv6AutocfgNotused : Nat := 1 <<< 7
/-- `IPV6_LL_AUTOCFG_ON` and `IPV6_RTR_AUTOCFG_ON`, and so on for the others. -/
def autocfgOn : Nat := 1 <<< 0
def autocfgOff : Nat := 1 <<< 1
def autocfgNotused : Nat := 1 <<< 7

/-- `struct in6_addr` as `s6_addr32` -/
abbrev In6 := Fin 4 → BitVec 32

structure Inet where
  pton4 : List UInt8 → Option (BitVec 32)
  pton6 : List UInt8 → Option In6

structure HostText where
  bytes : List UInt8
  nulFree : NulFree bytes
  fits : bytes.length < niMaxhost

/-- The fields of `struct iface_rec` that are decoded. -/
structure IfaceRec where
  ifaceNum : Nat
  ipaddress : HostText
  subnetMask : HostText
  gateway : HostText
  ipv6Linklocal : HostText
  ipv6Router : HostText
  ipv6Autocfg : List UInt8
  linklocalAutocfg : List UInt8
  routerAutocfg : List UInt8
  vlanId : Nat
  vlanPriority : Nat
  vlanState : List UInt8
  mtu : Nat

structure IfaceRecDecode where
  ifaceNum : Nat
  ipType : Nat
  ipv4Addr : BitVec 32
  ipv4SubnetMask : BitVec 32
  ipv4Gateway : BitVec 32
  ipv6Addr : In6
  ipv6SubnetMask : In6
  prefixLen : Nat
  ipv6Linklocal : In6
  ipv6Router : In6
  ipv6Autocfg : Nat
  linklocalAutocfg : Nat
  routerAutocfg : Nat
  vlanState : Nat
  vlanPriority : Nat
  vlanId : Nat
  mtu : Nat

/-- Behind the `memset`. -/
def zeroed : IfaceRecDecode :=
  ⟨0, 0, 0, 0, 0, fun _ => 0, fun _ => 0, 0, fun _ => 0, fun _ => 0, 0, 0, 0, 0, 0, 0, 0⟩

/-! ## The code -/

def keepMask (keepbits : Nat) : BitVec 32 :=
  if keepbits > 0 then 0#32 - (1#32 <<< (32 - keepbits)) else 0#32

/-- The loop over the words of an IPv6 mask, with `left` words to go. -/
def maskLoop : (left keepbits : Nat) → In6 → In6
  | 0, _, ia6 => ia6
  | left + 1, keepbits, ia6 =>
    let i := Fin.ofNat 4 (3 - left)
    if keepbits < 32 then Function.update ia6 i (keepMask keepbits)
    else maskLoop left (keepbits - 32) (Function.update ia6 i 0xFFFFFFFF#32)

def decodeCidr (inet : Inet) (inIpaddrStr : List UInt8) (ird : IfaceRecDecode) :
    Int × IfaceRecDecode :=
  let ipaddrStr := (strlcpy inIpaddrStr niMaxhost).1
  let cidr := splitFirst 47 ipaddrStr
  let ipaddr := (cidr.map Prod.fst).getD ipaddrStr
  let keepbits := (cidr.map fun parts => (strtoul 10 parts.2).1).getD 0
  match inet.pton4 ipaddr with
  | none =>
    match inet.pton6 ipaddr with
    | none => (0, ird)
    | some a =>
      let ird := { ird with ipv6Addr := a, ipType := afInet6 }
      if keepbits > 128 then (1, ird)
      else if keepbits = 0 then
        (1, { ird with
          prefixLen := 64
          ipv6SubnetMask := fun i => if i < 2 then 0xFFFFFFFF#32 else 0#32 })
      else
        (1, { ird with
          prefixLen := keepbits
          ipv6SubnetMask := maskLoop 4 keepbits fun _ => 0#32 })
  | some a =>
    -- the first try has put the address in `ipv6_addr`
    let ird :=
      { ird with ipv6Addr := Function.update ird.ipv6Addr 0 a, ipType := afInet, ipv4Addr := a }
    if keepbits > 32 then (1, ird)
    else (1, { ird with ipv4SubnetMask := keepMask keepbits })

def calculateDefaultNetmask (ipAddr : BitVec 32) : BitVec 32 :=
  if ipAddr &&& 0x80000000#32 = 0#32 then 0xff000000#32
  else if ipAddr &&& 0xc0000000#32 = 0x80000000#32 then 0xffff0000#32
  else if ipAddr &&& 0xe0000000#32 = 0xc0000000#32 then 0xffffff00#32
  else -1#32

/-- `inet_pton` into a field, which a text that is no address leaves alone. -/
def ptonInto {A : Type} (pton : List UInt8 → Option A) (text : List UInt8) (field : A) : A :=
  (pton text).getD field

/-- The IPv6 part of `decode_iface`. The mask of the record is not read: the test for it is
on the address of the array `s6_addr`, which is never `NULL`. -/
def decodeIpv6 (inet : Inet) (rec : IfaceRec) (ird : IfaceRecDecode) : IfaceRecDecode :=
  let ird :=
    { ird with
      ipv6Autocfg :=
        if rec.ipv6Autocfg = ascii "dhcpv6" then ipv6AutocfgDhcpv6
        else if rec.ipv6Autocfg = ascii "nd" then ipv6AutocfgNd
        else ipv6AutocfgNotspec
      linklocalAutocfg := if rec.linklocalAutocfg = ascii "off" then autocfgOff else autocfgOn
      routerAutocfg := if rec.routerAutocfg = ascii "off" then autocfgOff else autocfgOn }
  { ird with
    ipv6Addr := if ird.ipv6Autocfg = ipv6AutocfgDhcpv6 then fun _ => 0#32 else ird.ipv6Addr
    ipv6Linklocal :=
      if ird.linklocalAutocfg = autocfgOff then
        ptonInto inet.pton6 (strlcpy rec.ipv6Linklocal.bytes niMaxhost).1 ird.ipv6Linklocal
      else ird.ipv6Linklocal
    ipv6Router :=
      if ird.routerAutocfg = autocfgOff then
        ptonInto inet.pton6 (strlcpy rec.ipv6Router.bytes niMaxhost).1 ird.ipv6Router
      else ird.ipv6Router }

def decodeIpv4 (inet : Inet) (rec : IfaceRec) (ird : IfaceRecDecode) : IfaceRecDecode :=
  let mask :=
    if ird.ipv4SubnetMask = 0#32 then
      ptonInto inet.pton4 rec.subnetMask.bytes ird.ipv4SubnetMask
    else ird.ipv4SubnetMask
  { ird with
    ipv4SubnetMask := if mask = 0#32 then calculateDefaultNetmask ird.ipv4Addr else mask
    ipv4Gateway := ptonInto inet.pton4 (strlcpy rec.gateway.bytes niMaxhost).1 ird.ipv4Gateway }

def decodeIface (inet : Inet) (rec : IfaceRec) : Int × IfaceRecDecode :=
  let (rc, ird) := decodeCidr inet rec.ipaddress.bytes zeroed
  if rc ≠ 0 ∧ ird.ipType = 0 then (rc, ird)
  else
    let ird := { ird with ifaceNum := rec.ifaceNum, vlanId := rec.vlanId }
    if rec.ifaceNum ≠ ifaceNumInvalid then
      let tagged := rec.vlanId ≠ 0 ∧ rec.vlanState ≠ ascii "disable"
      let ird :=
        { ird with
          mtu := rec.mtu
          vlanState := if tagged then 1 else ird.vlanState
          vlanPriority := if tagged then rec.vlanPriority else ird.vlanPriority }
      if ird.ipType = afInet6 then (0, decodeIpv6 inet rec ird)
      else (0, decodeIpv4 inet rec ird)
    else
      (0, { ird with
        ipv6Autocfg := ipv6AutocfgNotused
        linklocalAutocfg := autocfgNotused
        routerAutocfg := autocfgNotused })
/-! ## What is written -/

inductive Address
  | v4 (a : BitVec 32)
  | v6 (a : In6)
  deriving DecidableEq

def Address.width : Address → Nat
  | .v4 _ => 32
  | .v6 _ => 128

def address (inet : Inet) (text : List UInt8) : Option Address :=
  match inet.pton4 text with
  | some a => some (.v4 a)
  | none => (inet.pton6 text).map .v6

/-- An address, or an address with a slash and a number of bits in its range behind it. -/
def written (inet : Inet) (text : List UInt8) : Option (Address × Option Nat) :=
  match splitFirst 47 text with
  | none => (address inet text).map fun a => (a, none)
  | some (ipaddr, bits) =>
    (address inet ipaddr).bind fun a => (numeral 10 bits).bind fun k =>
      if 1 ≤ k ∧ k ≤ a.width then some (a, some k) else none

def LeadingOnes (k : Nat) (mask : BitVec 32) : Prop :=
  ∀ j < 32, mask.getMsbD j = decide (j < k)

/-- The same of the four words of an IPv6 mask. -/
def LeadingOnes6 (k : Nat) (mask : In6) : Prop :=
  ∀ i : Fin 4, ∀ j < 32, (mask i).getMsbD j = decide (32 * i.val + j < k)

/-- The bits of the network of an address by its class; an address of another class is
its own network. -/
def classBits (a : BitVec 32) : Nat :=
  if a.toNat < 2 ^ 31 then 8
  else if a.toNat < 2 ^ 31 + 2 ^ 30 then 16
  else if a.toNat < 2 ^ 31 + 2 ^ 30 + 2 ^ 29 then 24
  else 32

/-- The mask of an IPv4 address: the bits behind the slash, else the mask of the record
if it is one and not zero, else that of the class. -/
def MaskRight (inet : Inet) (rec : IfaceRec) (a : BitVec 32) (mask : BitVec 32) :
    Option Nat → Prop
  | some k => LeadingOnes k mask
  | none =>
    (∀ m, inet.pton4 rec.subnetMask.bytes = some m → m ≠ 0#32 → mask = m) ∧
      ((∀ m, inet.pton4 rec.subnetMask.bytes = some m → m = 0#32) → LeadingOnes (classBits a) mask)

/-- The mask of an IPv6 address, unless the record has one that is not zero and there are no
bits behind the address. -/
def MaskRight6 (inet : Inet) (rec : IfaceRec) (mask : In6) : Option Nat → Prop
  | some k => LeadingOnes6 k mask
  | none =>
    (∀ m, inet.pton6 rec.subnetMask.bytes = some m → m = fun _ => 0#32) → LeadingOnes6 64 mask

def Decoded (inet : Inet) (rec : IfaceRec) (bits : Option Nat) (ird : IfaceRecDecode) :
    Address → Prop
  | .v4 a => ird.ipType = afInet ∧ ird.ipv4Addr = a ∧ MaskRight inet rec a ird.ipv4SubnetMask bits
  | .v6 a =>
    ird.ipType = afInet6 ∧
      ird.ipv6Addr = (if rec.ipv6Autocfg = ascii "dhcpv6" then fun _ => 0#32 else a) ∧
      MaskRight6 inet rec ird.ipv6SubnetMask bits

/-! ## Masks -/

variable {inet : Inet} {text : HostText} {k : Nat} (a : BitVec 32)

theorem keepMask_eq (h : 0 < k) : keepMask k = BitVec.allOnes 32 <<< (32 - k) := by
  unfold keepMask
  rw [if_pos h, BitVec.shiftLeft_eq_mul_twoPow, BitVec.shiftLeft_eq_mul_twoPow,
    ← BitVec.neg_one_eq_allOnes, BitVec.neg_mul, BitVec.zero_sub]

theorem leadingOnes_keepMask (h : k ≤ 32) : LeadingOnes k (keepMask k) := by
  intro j hj
  by_cases hzero : k = 0
  · subst hzero
    simp [keepMask]
  · rw [keepMask_eq (Nat.pos_of_ne_zero hzero), BitVec.getMsbD_shiftLeft, BitVec.getMsbD_allOnes]
    exact decide_eq_decide.mpr (by omega)

/-- The words before the loop's place stay, the others get the bits that are left. -/
theorem maskLoop_bit (left k : Nat) (ia6 : In6) (i : Fin 4) {j : Nat} (hleft : left ≤ 4)
    (hk : k ≤ 32 * left) (hj : j < 32) (hzero : 4 - left ≤ i.val → ia6 i = 0#32) :
    (maskLoop left k ia6 i).getMsbD j =
      if i.val < 4 - left then (ia6 i).getMsbD j
      else decide (32 * (i.val - (4 - left)) + j < k) := by
  induction left generalizing k ia6 with
  | zero =>
    rw [if_pos (by omega)]
    rfl
  | succ left ih =>
    have hplace : (Fin.ofNat 4 (3 - left)).val = 3 - left := by
      rw [Fin.val_ofNat]
      omega
    unfold maskLoop
    dsimp only
    by_cases hlast : k < 32
    · rw [if_pos hlast]
      by_cases hi : i = Fin.ofNat 4 (3 - left)
      · rw [hi, hplace, Function.update_self, leadingOnes_keepMask (by omega) j hj]
        rw [if_neg (by omega : ¬ 3 - left < 4 - (left + 1))]
        exact decide_eq_decide.mpr (by omega)
      · have hother : i.val ≠ 3 - left := fun heq => hi (Fin.ext (heq.trans hplace.symm))
        rw [Function.update_of_ne hi]
        split
        · rfl
        · rw [hzero (by omega), BitVec.getMsbD_zero, eq_comm, decide_eq_false_iff_not]
          omega
    · rw [if_neg hlast]
      by_cases hi : i = Fin.ofNat 4 (3 - left)
      · have hplaced : i.val = 3 - left := by rw [hi, hplace]
        rw [ih (k - 32) _ (by omega) (by omega) (by intro; omega),
          if_pos (by omega : i.val < 4 - left), if_neg (by omega : ¬ i.val < 4 - (left + 1)), hi,
          Function.update_self, hplace, show 0xFFFFFFFF#32 = BitVec.allOnes 32 by decide,
          BitVec.getMsbD_allOnes]
        exact decide_eq_decide.mpr (by omega)
      · have hother : i.val ≠ 3 - left := fun heq => hi (Fin.ext (heq.trans hplace.symm))
        have hstill : 4 - left ≤ i.val → Function.update ia6 (Fin.ofNat 4 (3 - left))
            0xFFFFFFFF#32 i = 0#32 := by
          intro hbehind
          rw [Function.update_of_ne hi]
          exact hzero (by omega)
        rw [ih (k - 32) _ (by omega) (by omega) hstill, Function.update_of_ne hi]
        by_cases hbefore : i.val < 4 - left
        · rw [if_pos hbefore, if_pos (by omega)]
        · rw [if_neg hbefore, if_neg (by omega)]
          exact decide_eq_decide.mpr (by omega)

theorem leadingOnes6_maskLoop (h : k ≤ 128) :
    LeadingOnes6 k (maskLoop 4 k fun _ => 0#32) := by
  intro i j hj
  rw [maskLoop_bit 4 k _ i (by omega) (by omega) hj (fun _ => rfl), if_neg (by omega)]
  rfl

theorem leadingOnes6_half :
    LeadingOnes6 64 fun i => if i < 2 then 0xFFFFFFFF#32 else 0#32 := by
  unfold LeadingOnes6
  decide
/-- The upper bits of a word. -/
theorem toNat_and_upper (s : Nat) :
    (a &&& (BitVec.allOnes 32 <<< s)).toNat = a.toNat / 2 ^ s * 2 ^ s := by
  have hshift : a &&& (BitVec.allOnes 32 <<< s) = (a >>> s) <<< s := by
    apply BitVec.eq_of_getLsbD_eq
    intro i hi
    rw [BitVec.getLsbD_and, BitVec.getLsbD_shiftLeft, BitVec.getLsbD_shiftLeft,
      BitVec.getLsbD_allOnes, BitVec.getLsbD_ushiftRight]
    by_cases his : i < s
    · simp [his]
    · simp [his, hi, show s + (i - s) = i by omega, show i - s < 32 by omega]
  rw [hshift, BitVec.toNat_shiftLeft, BitVec.toNat_ushiftRight, Nat.shiftRight_eq_div_pow,
    Nat.shiftLeft_eq]
  exact Nat.mod_eq_of_lt (Nat.lt_of_le_of_lt (Nat.div_mul_le_self _ _) a.isLt)

theorem classA_iff : a &&& 0x80000000#32 = 0#32 ↔ a.toNat < 2 ^ 31 := by
  have hupper := toNat_and_upper a 31
  rw [show BitVec.allOnes 32 <<< 31 = 0x80000000#32 by decide] at hupper
  rw [← BitVec.toNat_inj, hupper, show (0#32).toNat = 0 by decide]
  omega

theorem classB_iff :
    a &&& 0xc0000000#32 = 0x80000000#32 ↔ 2 ^ 31 ≤ a.toNat ∧ a.toNat < 2 ^ 31 + 2 ^ 30 := by
  have hupper := toNat_and_upper a 30
  rw [show BitVec.allOnes 32 <<< 30 = 0xc0000000#32 by decide] at hupper
  rw [← BitVec.toNat_inj, hupper, show (0x80000000#32).toNat = 2 ^ 31 by decide]
  omega

theorem classC_iff :
    a &&& 0xe0000000#32 = 0xc0000000#32 ↔
      2 ^ 31 + 2 ^ 30 ≤ a.toNat ∧ a.toNat < 2 ^ 31 + 2 ^ 30 + 2 ^ 29 := by
  have hupper := toNat_and_upper a 29
  rw [show BitVec.allOnes 32 <<< 29 = 0xe0000000#32 by decide] at hupper
  rw [← BitVec.toNat_inj, hupper, show (0xc0000000#32).toNat = 2 ^ 31 + 2 ^ 30 by decide]
  omega

theorem calculateDefaultNetmask_eq :
    calculateDefaultNetmask a = keepMask (classBits a) := by
  unfold calculateDefaultNetmask classBits
  simp only [classA_iff, classB_iff, classC_iff]
  split
  · decide
  · next hA =>
    simp only [show 2 ^ 31 ≤ a.toNat by omega, true_and]
    split
    · decide
    · next hB =>
      simp only [show 2 ^ 31 + 2 ^ 30 ≤ a.toNat by omega, true_and]
      split
      · decide
      · decide

theorem classBits_le : classBits a ≤ 32 := by
  unfold classBits
  split_ifs <;> omega

theorem keepMask_ne_zero (h1 : 1 ≤ k) (h32 : k ≤ 32) : keepMask k ≠ 0#32 := by
  intro hzero
  have hfirst := leadingOnes_keepMask h32 0 (by omega)
  rw [hzero, BitVec.getMsbD_zero, eq_comm, decide_eq_false_iff_not] at hfirst
  omega

/-! ## Decoding -/

/-- The number of bits that `decode_cidr` works with. -/
def keepbitsOf (bits : Option Nat) : Nat := bits.getD 0

variable {bits : Option Nat}

/-- A text that is written well is cut at its slash and its bits are read. -/
theorem decodeCidr_parts {a : Address} (h : written inet text.bytes = some (a, bits)) :
    ∃ ipaddr, address inet ipaddr = some a ∧ (∀ k ∈ bits, 1 ≤ k ∧ k ≤ a.width) ∧
      ((splitFirst 47 (strlcpy text.bytes niMaxhost).1).map Prod.fst).getD
        (strlcpy text.bytes niMaxhost).1 = ipaddr ∧
      ((splitFirst 47 (strlcpy text.bytes niMaxhost).1).map
        fun parts => (strtoul 10 parts.2).1).getD 0 = keepbitsOf bits := by
  have hcopy : (strlcpy text.bytes niMaxhost).1 = text.bytes := by
    have hfits := strlcpy_fits text.bytes niMaxhost
      (by rw [cstr_of_nulFree _ text.nulFree]; exact text.fits)
    rw [hfits, cstr_of_nulFree _ text.nulFree]
  rw [hcopy]
  unfold written at h
  cases hsplit : splitFirst 47 text.bytes with
  | none =>
    rw [hsplit] at h
    obtain ⟨b, hb, heq⟩ := Option.map_eq_some_iff.mp h
    obtain ⟨rfl, rfl⟩ := Prod.mk.inj heq
    exact ⟨text.bytes, hb, by simp, rfl, rfl⟩
  | some parts =>
    obtain ⟨ipaddr, number⟩ := parts
    rw [hsplit] at h
    obtain ⟨b, hb, hrest⟩ := Option.bind_eq_some_iff.mp h
    obtain ⟨k, hk, hin⟩ := Option.bind_eq_some_iff.mp hrest
    split at hin
    · next hrange =>
      obtain ⟨rfl, rfl⟩ := Prod.mk.inj (Option.some.inj hin)
      refine ⟨ipaddr, hb, ?_, rfl, ?_⟩
      · intro n hn
        obtain rfl := Option.some.inj hn
        exact hrange
      · have hwidth : b.width ≤ 128 := by cases b <;> simp [Address.width]
        have hreads := reads_numeral hk (by unfold ulongBound; omega)
        have hnul : NulFree number := by
          obtain ⟨-, hall, -⟩ := numeral_eq_some.mp hk
          intro c hc hzero
          have hdigit := hall c hc
          rw [hzero] at hdigit
          exact absurd hdigit (by decide)
        have hread := (strtoul_eq_iff_reads (Or.inl rfl) hnul
          (numeral_eq_some.mp hk).1 k).mpr hreads
        exact congrArg Prod.fst hread
    · cases hin

theorem address_v4 {ipaddr : List UInt8} {a : BitVec 32}
    (h : address inet ipaddr = some (.v4 a)) : inet.pton4 ipaddr = some a := by
  unfold address at h
  cases hpton : inet.pton4 ipaddr with
  | some b =>
    rw [hpton] at h
    cases h
    rfl
  | none =>
    rw [hpton] at h
    obtain ⟨b, -, hb⟩ := Option.map_eq_some_iff.mp h
    cases hb

theorem address_v6 {ipaddr : List UInt8} {a : In6}
    (h : address inet ipaddr = some (.v6 a)) :
    inet.pton4 ipaddr = none ∧ inet.pton6 ipaddr = some a := by
  unfold address at h
  cases hpton : inet.pton4 ipaddr with
  | some b =>
    rw [hpton] at h
    cases h
  | none =>
    rw [hpton] at h
    obtain ⟨b, hb, heq⟩ := Option.map_eq_some_iff.mp h
    cases heq
    exact ⟨rfl, hb⟩

/-- `decode_cidr` on a text that is an IPv4 address. -/
theorem decodeCidr_v4 {a : BitVec 32} (h : written inet text.bytes = some (.v4 a, bits))
    (ird : IfaceRecDecode) :
    ∃ ird', decodeCidr inet text.bytes ird = (1, ird') ∧ ird'.ipType = afInet ∧
      ird'.ipv4Addr = a ∧ ird'.ipv4SubnetMask = keepMask (keepbitsOf bits) := by
  obtain ⟨ipaddr, haddr, hbits, hcut, hkeep⟩ := decodeCidr_parts h
  have hle : ¬ keepbitsOf bits > 32 := by
    cases bits with
    | none => decide
    | some k => exact Nat.not_lt.mpr (hbits k rfl).2
  refine ⟨{ ird with
    ipv6Addr := Function.update ird.ipv6Addr 0 a, ipType := afInet, ipv4Addr := a,
    ipv4SubnetMask := keepMask (keepbitsOf bits) }, ?_, rfl, rfl, rfl⟩
  unfold decodeCidr
  dsimp only
  rw [hcut, hkeep, address_v4 haddr]
  exact if_neg hle

/-- `decode_cidr` on a text that is an IPv6 address. -/
theorem decodeCidr_v6 {a : In6} (h : written inet text.bytes = some (.v6 a, bits))
    (ird : IfaceRecDecode) :
    ∃ ird', decodeCidr inet text.bytes ird = (1, ird') ∧ ird'.ipType = afInet6 ∧
      ird'.ipv6Addr = a ∧ LeadingOnes6 (bits.getD 64) ird'.ipv6SubnetMask := by
  obtain ⟨ipaddr, haddr, hbits, hcut, hkeep⟩ := decodeCidr_parts h
  obtain ⟨hnot4, hpton⟩ := address_v6 haddr
  unfold decodeCidr
  dsimp only
  rw [hcut, hkeep, hnot4, hpton]
  dsimp only
  cases bits with
  | none =>
    rw [if_neg (by decide), if_pos (by decide)]
    exact ⟨_, rfl, rfl, rfl, leadingOnes6_half⟩
  | some k =>
    obtain ⟨hpos, hle⟩ := hbits k rfl
    have hle128 : k ≤ 128 := hle
    rw [if_neg (Nat.not_lt.mpr hle128 : ¬ keepbitsOf (some k) > 128),
      if_neg (Nat.ne_of_gt hpos : ¬ keepbitsOf (some k) = 0)]
    exact ⟨_, rfl, rfl, rfl, leadingOnes6_maskLoop hle128⟩

/-- The three sources of an IPv4 mask, in their order. -/
theorem decodeIpv4_mask (inet : Inet) (rec : IfaceRec) {ird : IfaceRecDecode}
    (hbits : ∀ k ∈ bits, 1 ≤ k ∧ k ≤ 32) (hmask : ird.ipv4SubnetMask = keepMask (keepbitsOf bits)) :
    MaskRight inet rec ird.ipv4Addr (decodeIpv4 inet rec ird).ipv4SubnetMask bits := by
  unfold decodeIpv4
  dsimp only
  cases bits with
  | some k =>
    obtain ⟨hpos, hle⟩ := hbits k rfl
    have hset : ird.ipv4SubnetMask ≠ 0#32 := by
      rw [hmask]
      exact keepMask_ne_zero hpos hle
    rw [if_neg hset, if_neg hset, hmask]
    exact leadingOnes_keepMask hle
  | none =>
    have hunset : ird.ipv4SubnetMask = 0#32 := hmask
    rw [if_pos hunset, hunset]
    unfold ptonInto
    constructor
    · intro m hm hne
      rw [hm, Option.getD_some, if_neg hne]
    · intro hnone
      have hzero : (inet.pton4 rec.subnetMask.bytes).getD 0#32 = 0#32 := by
        cases hm : inet.pton4 rec.subnetMask.bytes with
        | none => rfl
        | some m => exact hnone m hm
      rw [if_pos hzero, calculateDefaultNetmask_eq]
      exact leadingOnes_keepMask (classBits_le _)

/-- In every record with a valid interface number whose text is an address, alone or with a
number of bits in range behind it, the family, the address and the mask come out as they
are written; only a record that asks DHCP for its IPv6 address has none. -/
theorem decodes_as_written (inet : Inet) (rec : IfaceRec) (hnum : rec.ifaceNum ≠ ifaceNumInvalid)
    (a : Address) (bits : Option Nat) (h : written inet rec.ipaddress.bytes = some (a, bits)) :
    (decodeIface inet rec).1 = 0 ∧ Decoded inet rec bits (decodeIface inet rec).2 a := by
  obtain ⟨-, -, hbits, -⟩ := decodeCidr_parts h
  unfold decodeIface
  cases a with
  | v4 a =>
    obtain ⟨ird, hcidr, htype, haddr, hmask⟩ := decodeCidr_v4 h zeroed
    have hno6 : ¬ ird.ipType = afInet6 := by
      rw [htype]
      decide
    have hset : ¬ ((1 : Int) ≠ 0 ∧ ird.ipType = 0) := by
      rw [htype]
      decide
    rw [hcidr]
    dsimp only
    rw [if_neg hset, if_pos hnum, if_neg hno6]
    refine ⟨rfl, htype, haddr, ?_⟩
    rw [← haddr]
    exact decodeIpv4_mask inet rec hbits hmask
  | v6 a =>
    obtain ⟨ird, hcidr, htype, haddr, hmask⟩ := decodeCidr_v6 h zeroed
    have hset : ¬ ((1 : Int) ≠ 0 ∧ ird.ipType = 0) := by
      rw [htype]
      decide
    rw [hcidr]
    dsimp only
    rw [if_neg hset, if_pos hnum, if_pos htype]
    refine ⟨rfl, htype, ?_, ?_⟩
    · unfold decodeIpv6
      dsimp only
      rw [haddr]
      by_cases hdhcp : rec.ipv6Autocfg = ascii "dhcpv6"
      · rw [if_pos hdhcp, if_pos hdhcp, if_pos rfl]
      · rw [if_neg hdhcp, if_neg hdhcp, if_neg]
        split <;> decide
    · cases bits with
      | none => exact fun _ => hmask
      | some k => exact hmask

/-- `inet_pton` on the texts of the records below. -/
def someInet : Inet where
  pton4 := fun s => if s = ascii "10.1.2.3" then some 0x0a010203#32 else none
  pton6 := fun s =>
    if s = ascii "fe80::1" then some ![0xfe800000#32, 0#32, 0#32, 1#32]
    else if s = ascii "ffff::" then some ![0xffff0000#32, 0#32, 0#32, 0#32]
    else none

def noText : HostText := ⟨[], List.forall_mem_nil _, Nat.succ_pos _⟩

/-- A record with this address and mask and this way to configure IPv6. -/
def someRec (ipaddress subnetMask : HostText) (ipv6Autocfg : List UInt8) : IfaceRec :=
  ⟨0, ipaddress, subnetMask, noText, noText, noText, ipv6Autocfg, [], [], 0, 0, [], 1500⟩

/-- An IPv4 address with 24 bits. -/
theorem decodes_as_written_cidr :
    (decodeIface someInet
      (someRec ⟨ascii "10.1.2.3/24", by decide +kernel, by decide +kernel⟩ noText [])).2.ipv4SubnetMask =
        0xffffff00#32 ∧
      Decoded someInet (someRec ⟨ascii "10.1.2.3/24", by decide +kernel, by decide +kernel⟩ noText []) (some 24)
        (decodeIface someInet
          (someRec ⟨ascii "10.1.2.3/24", by decide +kernel, by decide +kernel⟩ noText [])).2
        (.v4 0x0a010203#32) := by
  refine ⟨by decide +kernel, ?_⟩
  refine (decodes_as_written someInet _ (by decide) (.v4 0x0a010203#32) (some 24) ?_).2
  decide +kernel

/-- A record that asks DHCP gets no address from its text, on purpose. A text that is no
address, bits out of range and an IPv6 mask in the record are passed over without an
error. -/
theorem decodes_otherwise :
    (decodeIface someInet
      (someRec ⟨ascii "fe80::1", by decide +kernel, by decide +kernel⟩ noText (ascii "dhcpv6"))).2.ipv6Addr 0 =
        0#32 ∧
      (decodeIface someInet (someRec ⟨ascii "eth0", by decide +kernel, by decide +kernel⟩ noText [])).1 = 0 ∧
      (decodeIface someInet
        (someRec ⟨ascii "10.1.2.3/33", by decide +kernel, by decide +kernel⟩ noText [])).1 = 0 ∧
      (decodeIface someInet
        (someRec ⟨ascii "fe80::1", by decide +kernel, by decide +kernel⟩
          ⟨ascii "ffff::", by decide +kernel, by decide +kernel⟩ [])).2.ipv6SubnetMask 1 = 0xffffffff#32 := by
  refine ⟨by decide +kernel, by decide +kernel, by decide +kernel, by decide +kernel⟩

end IfaceDecode
