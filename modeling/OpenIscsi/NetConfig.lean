import OpenIscsi.IdbmLibrary

/-! # Network parameters of interfaces

`iface_get_param_count` of `usr/iface.c` counts the parameters that a set of interface records
asks for; `iscsiadm` allocates that many buffers and two more, and `iface_build_net_config` puts
one parameter after the other in them. The two walk over the same fields of a record, each in
its own order. -/

namespace NetConfig

open CString RecordFile List
open IdbmRecord (Field IfaceType str num ifaceGetIptype)

/-! ### What is sent -/

inductive ParamType where
  | netParam | ifaceParam
  deriving DecidableEq, Repr

/-- The parameters of `enum iscsi_net_param` and `enum iscsi_iface_param` that are built. -/
inductive Param where
  | ipv4Addr | ipv4Subnet | ipv4Gw | ipv4Bootproto | ipv6Linklocal | ipv6Addr | ipv6Router
  | ipv6AddrAutocfg | ipv6LinklocalAutocfg | ipv6RouterAutocfg | ifaceEnable | vlanEnabled
  | vlanTag | mtu | port | delayedAckEn | tcpNagleDisable | tcpWsfDisable | tcpWsf
  | tcpTimerScale | tcpTimestampEn | ipv4DhcpDnsAddrEn | ipv4DhcpSlpDaEn | ipv4TosEn | ipv4Tos
  | ipv4GratArpEn | ipv4DhcpAltClientIdEn | ipv4DhcpAltClientId | ipv4DhcpReqVendorIdEn
  | ipv4DhcpUseVendorIdEn | ipv4DhcpVendorId | ipv4DhcpLearnIqnEn | ipv4FragmentDisable
  | ipv4InForwardEn | ipv4Ttl | ipv6GratNeighborAdvEn | ipv6MldEn | ipv6FlowLabel
  | ipv6TrafficClass | ipv6HopLimit | ipv6NdReachableTmo | ipv6NdRexmitTime | ipv6NdStaleTmo
  | ipv6DupAddrDetectCnt | ipv6RtrAdvLinkMtu | redirectEn | defTaskmgmtTmo | hdrdgstEn
  | datadgstEn | immDataEn | initialR2tEn | dataseqInorderEn | pduInorderEn | erl
  | maxRecvDlength | firstBurst | maxR2t | maxBurst | chapAuthEn | bidiChapEn
  | strictLoginCompEn | discoveryAuthOptional | discoveryLogoutEn
  deriving DecidableEq, Repr

structure ParamInfo where
  ifaceNum : Int
  param : Param
  ifaceType : IfaceType
  paramType : ParamType
  value : List UInt8
  deriving DecidableEq, Repr

/-- What a fill function did to its buffer: left it alone, allocated and freed it again, or
filled it. -/
inductive Fill where
  | untouched
  | freed
  | filled (p : ParamInfo)
  deriving DecidableEq, Repr

def Fill.isFilled : Fill → Bool
  | .filled _ => true
  | _ => false

structure Inet where
  pton4 : List UInt8 → Option (Fin 4 → UInt8)
  pton6 : List UInt8 → Option (Fin 16 → UInt8)

/-- The sizes that `iface_fill_int_param_val` is called with. -/
inductive Width where
  | one | two | four
  deriving DecidableEq, Repr

def Width.bytes : Width → Nat
  | .one => 1
  | .two => 2
  | .four => 4

/-- An unsigned number as a little-endian host stores it, cut to the width. -/
def hostBytes (n : Int) (w : Width) : List UInt8 :=
  (List.range w.bytes).map fun i => UInt8.ofNat ((n % 2 ^ 32).toNat / 256 ^ i)

/-! ### Filling one parameter -/

inductive Item where
  /-- `IFACE_SET_PARAM_STATE` -/
  | state (param : Param) (paramType : ParamType) (f : Field)
  /-- `IFACE_SET_PARAM_INTVAL` -/
  | int (param : Param) (paramType : ParamType) (w : Width) (f : Field)
  /-- `IFACE_SET_NET_PARAM_STRVAL` -/
  | text (param : Param) (f : Field)
  deriving DecidableEq, Repr

def ifaceFillParamState (info : List UInt8 → ParamInfo) (val : List UInt8) : Fill :=
  if val = [] then .untouched
  else if val = ascii "disable" then .filled (info [1])
  else if val = ascii "enable" then .filled (info [2])
  else .freed

def ifaceFillIntParamVal (info : List UInt8 → ParamInfo) (w : Width) (val : Int) : Fill :=
  if val = 0 then .untouched else .filled (info (hostBytes val w))

def ifaceFillStrParamVal (info : List UInt8 → ParamInfo) (val : List UInt8) : Fill :=
  if val = [] then .untouched else .filled (info val)

def Item.fill (iptype : IfaceType) (iface : Field → Val) : Item → Fill
  | .state param paramType f =>
    ifaceFillParamState (.mk (num iface .ifaceIfaceNum) param iptype paramType) (str iface f)
  | .int param paramType w f =>
    ifaceFillIntParamVal (.mk (num iface .ifaceIfaceNum) param iptype paramType) w (num iface f)
  | .text param f =>
    ifaceFillStrParamVal (.mk (num iface .ifaceIfaceNum) param iptype .netParam) (str iface f)

/-- `iface_fill_vlan_id`: the priority in the upper three bits, zero if a part is out of range. -/
def ifaceFillVlanId (iptype : IfaceType) (iface : Field → Val) : Fill :=
  let id := (num iface .ifaceVlanId).toNat
  let priority := (num iface .ifaceVlanPriority).toNat
  let vlan := if id ≤ 4095 ∧ priority ≤ 7 then (priority <<< 13) ||| (id &&& 4095) else 0
  .filled ⟨num iface .ifaceIfaceNum, .vlanTag, iptype, .netParam, hostBytes vlan .two⟩

def ifaceFillNetBootproto (iface : Field → Val) : Fill :=
  .filled ⟨num iface .ifaceIfaceNum, .ipv4Bootproto, .ipv4, .netParam,
    [if str iface .ifaceBootproto = ascii "dhcp" then 2 else 1]⟩

/-- `iface_fill_net_autocfg`; like its two siblings it does not set the interface number. -/
def ifaceFillNetAutocfg (iface : Field → Val) : Fill :=
  .filled ⟨0, .ipv6AddrAutocfg, .ipv6, .netParam,
    [if str iface .ifaceIpv6Autocfg = ascii "nd" then 2
      else if str iface .ifaceIpv6Autocfg = ascii "dhcpv6" then 3 else 1]⟩

def fillAutocfg (param : Param) (auto : Bool) : Fill :=
  .filled ⟨0, param, .ipv6, .netParam, [if auto then 1 else 2]⟩

def setIpv4Addr (inet : Inet) (iface : Field → Val) (param : Param) (f : Field) : Fill :=
  if strstr (str iface f) (ascii ".") then
    match inet.pton4 (str iface f) with
    | none => .freed
    | some a =>
      if ∀ i, a i = 0 then .freed
      else .filled ⟨num iface .ifaceIfaceNum, param, .ipv4, .netParam, List.ofFn a⟩
  else .untouched

def setIpv6Addr (inet : Inet) (iface : Field → Val) (param : Param) (f : Field) : Fill :=
  if strstr (str iface f) (ascii ":") then
    match inet.pton6 (str iface f) with
    | none => .freed
    | some a => .filled ⟨num iface .ifaceIfaceNum, param, .ipv6, .netParam, List.ofFn a⟩
  else .untouched

/-! ### Building the parameters of a record -/

def ipv4Items : List Item :=
  [.state .ipv4DhcpDnsAddrEn .netParam .ifaceDhcpDns,
    .state .ipv4DhcpSlpDaEn .netParam .ifaceDhcpSlpDa,
    .state .ipv4TosEn .netParam .ifaceTosState,
    .int .ipv4Tos .netParam .one .ifaceTos,
    .state .ipv4GratArpEn .netParam .ifaceGratuitousArp,
    .state .ipv4DhcpAltClientIdEn .netParam .ifaceDhcpAltClientIdState,
    .text .ipv4DhcpAltClientId .ifaceDhcpAltClientId,
    .state .ipv4DhcpReqVendorIdEn .netParam .ifaceDhcpReqVendorIdState,
    .state .ipv4DhcpUseVendorIdEn .netParam .ifaceDhcpVendorIdState,
    .text .ipv4DhcpVendorId .ifaceDhcpVendorId,
    .state .ipv4DhcpLearnIqnEn .netParam .ifaceDhcpLearnIqn,
    .state .ipv4FragmentDisable .netParam .ifaceFragmentation,
    .state .ipv4InForwardEn .netParam .ifaceIncomingForwarding,
    .int .ipv4Ttl .netParam .one .ifaceTtl]

def ipv6Items : List Item :=
  [.state .ipv6GratNeighborAdvEn .netParam .ifaceGratuitousNeighborAdv,
    .state .ipv6MldEn .netParam .ifaceMld,
    .int .ipv6FlowLabel .netParam .four .ifaceFlowLabel,
    .int .ipv6TrafficClass .netParam .one .ifaceTrafficClass,
    .int .ipv6HopLimit .netParam .one .ifaceHopLimit,
    .int .ipv6NdReachableTmo .netParam .four .ifaceNdReachableTmo,
    .int .ipv6NdRexmitTime .netParam .four .ifaceNdRexmitTime,
    .int .ipv6NdStaleTmo .netParam .four .ifaceNdStaleTmo,
    .int .ipv6DupAddrDetectCnt .netParam .one .ifaceDupAddrDetectCnt,
    .int .ipv6RtrAdvLinkMtu .netParam .four .ifaceRouterAdvLinkMtu]

/-- The parameters of both families that stand after the port. -/
def sessionItems : List Item :=
  [.state .delayedAckEn .netParam .ifaceDelayedAck,
    .state .tcpNagleDisable .netParam .ifaceNagle,
    .state .tcpWsfDisable .netParam .ifaceTcpWsfState,
    .int .tcpWsf .netParam .one .ifaceTcpWsf,
    .int .tcpTimerScale .netParam .one .ifaceTcpTimerScale,
    .state .tcpTimestampEn .netParam .ifaceTcpTimestamp,
    .state .redirectEn .netParam .ifaceRedirect,
    .int .defTaskmgmtTmo .ifaceParam .two .ifaceDefTaskMgmtTmo,
    .state .hdrdgstEn .ifaceParam .ifaceHeaderDigest,
    .state .datadgstEn .ifaceParam .ifaceDataDigest,
    .state .immDataEn .ifaceParam .ifaceImmediateData,
    .state .initialR2tEn .ifaceParam .ifaceInitialR2t,
    .state .dataseqInorderEn .ifaceParam .ifaceDataSeqInorder,
    .state .pduInorderEn .ifaceParam .ifaceDataPduInorder,
    .int .erl .ifaceParam .one .ifaceErl,
    .int .maxRecvDlength .ifaceParam .four .ifaceMaxRecvDlength,
    .int .firstBurst .ifaceParam .four .ifaceFirstBurstLen,
    .int .maxR2t .ifaceParam .two .ifaceMaxOutR2t,
    .int .maxBurst .ifaceParam .four .ifaceMaxBurstLen,
    .state .chapAuthEn .ifaceParam .ifaceChapAuth,
    .state .bidiChapEn .ifaceParam .ifaceBidiChap,
    .state .strictLoginCompEn .ifaceParam .ifaceStrictLoginComp,
    .state .discoveryAuthOptional .ifaceParam .ifaceDiscoveryAuth,
    .state .discoveryLogoutEn .ifaceParam .ifaceDiscoveryLogout]

def stateItem : Item := .state .ifaceEnable .netParam .ifaceState

def vlanItem : Item := .state .vlanEnabled .netParam .ifaceVlanState

def mtuItem : Item := .int .mtu .netParam .two .ifaceMtu

def portItem : Item := .int .port .netParam .two .ifacePort

/-- The address part of an IPv4 record. -/
def ipv4Fills (inet : Inet) (iface : Field → Val) : List Fill :=
  if strstr (str iface .ifaceBootproto) (ascii "dhcp") then [ifaceFillNetBootproto iface]
  else if strstr (str iface .ifaceIpaddress) (ascii ".") then
    [ifaceFillNetBootproto iface,
      setIpv4Addr inet iface .ipv4Addr .ifaceIpaddress,
      setIpv4Addr inet iface .ipv4Subnet .ifaceSubnetMask,
      setIpv4Addr inet iface .ipv4Gw .ifaceGateway]
  else []

/-- How each of the three IPv6 addresses is set: by itself, by the user, or not at all. -/
def ipv6AddrFills (inet : Inet) (iface : Field → Val) (auto : Bool) (autocfg : Fill)
    (param : Param) (f : Field) : List Fill :=
  if auto then [autocfg]
  else if strstr (str iface f) (ascii ":") then [autocfg, setIpv6Addr inet iface param f]
  else []

def addrAuto (iface : Field → Val) : Bool :=
  strstr (str iface .ifaceIpv6Autocfg) (ascii "nd") ||
    strstr (str iface .ifaceIpv6Autocfg) (ascii "dhcpv6")

def linklocalAuto (iface : Field → Val) : Bool :=
  strstr (str iface .ifaceLinklocalAutocfg) (ascii "auto")

def routerAuto (iface : Field → Val) : Bool :=
  strstr (str iface .ifaceRouterAutocfg) (ascii "auto")

/-- The address part of an IPv6 record. -/
def ipv6Fills (inet : Inet) (iface : Field → Val) : List Fill :=
  ipv6AddrFills inet iface (addrAuto iface) (ifaceFillNetAutocfg iface) .ipv6Addr
      .ifaceIpaddress ++
    ipv6AddrFills inet iface (linklocalAuto iface)
      (fillAutocfg .ipv6LinklocalAutocfg (linklocalAuto iface)) .ipv6Linklocal
      .ifaceIpv6Linklocal ++
    ipv6AddrFills inet iface (routerAuto iface)
      (fillAutocfg .ipv6RouterAutocfg (routerAuto iface)) .ipv6Router .ifaceIpv6Router

/-- The parameters common to IPv4 and IPv6 interfaces. -/
def commonFills (iptype : IfaceType) (iface : Field → Val) : List Fill :=
  [stateItem.fill iptype iface, vlanItem.fill iptype iface] ++
    (if str iface .ifaceVlanState ≠ ascii "disable" ∧ num iface .ifaceVlanId ≠ 0 then
      [ifaceFillVlanId iptype iface] else []) ++
    (mtuItem :: portItem :: sessionItems).map (Item.fill iptype iface)

def familyFills (iptype : IfaceType) (iface : Field → Val) (addrs : List Fill)
    (items : List Item) : List Fill :=
  if addrs.countP Fill.isFilled = 0 then addrs
  else addrs ++ items.map (Item.fill iptype iface) ++ commonFills iptype iface

/-- The default port is set first. -/
def withPort (iface : Field → Val) : Field → Val :=
  if num iface .ifacePort = 0 then Function.update iface .ifacePort (.num 3260) else iface

/-- What `__iface_build_net_config` does to the buffers for a record that it does not skip. -/
def recordFills (inet : Inet) (r : Field → Val) : List Fill :=
  let iface := withPort r
  match ifaceGetIptype iface with
  | .ipv4 =>
    if str iface .ifaceState = ascii "disable" then [stateItem.fill .ipv4 iface]
    else familyFills .ipv4 iface (ipv4Fills inet iface) ipv4Items
  | .ipv6 =>
    if str iface .ifaceState = ascii "disable" then [stateItem.fill .ipv6 iface]
    else familyFills .ipv6 iface (ipv6Fills inet iface) ipv6Items

/-- The buffers after the two reserved ones: those in use, in their order, and how many have been
written at all. -/
structure Iovs where
  used : List ParamInfo
  written : Nat

/-- A fill function gets the first buffer that is not in use. -/
def Iovs.put (b : Iovs) : Fill → Iovs
  | .untouched => b
  | .freed => { b with written := max b.written (b.used.length + 1) }
  | .filled p => ⟨b.used ++ [p], max b.written (b.used.length + 1)⟩

def buildRecord (inet : Inet) (primary : Field → Val) (b : Iovs) (iface : Field → Val) : Iovs :=
  if str primary .ifaceHwaddress ≠ str iface .ifaceHwaddress then b
  else (recordFills inet iface).foldl Iovs.put b

def ifaceBuildNetConfig (inet : Inet) (iface : Field → Val) (ifaceAll : Bool)
    (ifaces : List (Field → Val)) : Iovs :=
  if ifaceAll then ifaces.foldl (buildRecord inet iface) ⟨[], 0⟩
  else buildRecord inet iface ⟨[], 0⟩ iface

/-! ### Counting the parameters of a record -/

/-- The three kinds of field that are counted. -/
inductive Test where
  /-- `IFACE_NET_PARAM_EN_CNT` -/
  | state (f : Field)
  | int (f : Field)
  | text (f : Field)
  deriving DecidableEq, Repr

def Test.counts (iface : Field → Val) : Test → Bool
  | .state f => str iface f = ascii "disable" || str iface f = ascii "enable"
  | .int f => num iface f ≠ 0
  | .text f => str iface f ≠ []

def ipv4Tests : List Test :=
  [.state .ifaceDhcpDns, .state .ifaceDhcpSlpDa, .state .ifaceTosState,
    .state .ifaceGratuitousArp, .state .ifaceDhcpAltClientIdState, .text .ifaceDhcpAltClientId,
    .state .ifaceDhcpReqVendorIdState, .state .ifaceDhcpVendorIdState, .text .ifaceDhcpVendorId,
    .state .ifaceDhcpLearnIqn, .state .ifaceFragmentation, .state .ifaceIncomingForwarding,
    .int .ifaceTos, .int .ifaceTtl]

def ipv6Tests : List Test :=
  [.state .ifaceGratuitousNeighborAdv, .state .ifaceMld, .int .ifaceFlowLabel,
    .int .ifaceTrafficClass, .int .ifaceHopLimit, .int .ifaceNdReachableTmo,
    .int .ifaceNdRexmitTime, .int .ifaceNdStaleTmo, .int .ifaceDupAddrDetectCnt,
    .int .ifaceRouterAdvLinkMtu]

def commonTests : List Test :=
  [.int .ifaceMtu, .int .ifacePort, .state .ifaceDelayedAck, .state .ifaceNagle,
    .state .ifaceTcpWsfState, .state .ifaceTcpTimestamp, .state .ifaceRedirect,
    .state .ifaceHeaderDigest, .state .ifaceDataDigest, .state .ifaceImmediateData,
    .state .ifaceInitialR2t, .state .ifaceDataSeqInorder, .state .ifaceDataPduInorder,
    .state .ifaceChapAuth, .state .ifaceBidiChap, .state .ifaceStrictLoginComp,
    .state .ifaceDiscoveryAuth, .state .ifaceDiscoveryLogout, .int .ifaceTcpWsf,
    .int .ifaceTcpTimerScale, .int .ifaceDefTaskMgmtTmo, .int .ifaceErl,
    .int .ifaceMaxRecvDlength, .int .ifaceFirstBurstLen, .int .ifaceMaxBurstLen,
    .int .ifaceMaxOutR2t]

def ifaceGetCommonParamCount (iface : Field → Val) : Nat :=
  (if str iface .ifaceVlanState ≠ ascii "disable" then
      1 + (if num iface .ifaceVlanId ≠ 0 then 1 else 0)
    else 1) + commonTests.countP (Test.counts iface)

def ipv4AddrCount (iface : Field → Val) : Nat :=
  if strstr (str iface .ifaceBootproto) (ascii "dhcp") then 1
  else if strstr (str iface .ifaceIpaddress) (ascii ".") then
    1 + 1 + (if strstr (str iface .ifaceSubnetMask) (ascii ".") then 1 else 0) +
      (if strstr (str iface .ifaceGateway) (ascii ".") then 1 else 0)
  else 1 - 1

def ipv6AddrCount (iface : Field → Val) (auto : Bool) (f : Field) : Nat :=
  if auto then 1 else if strstr (str iface f) (ascii ":") then 1 + 1 else 1 - 1

def familyCount (iface : Field → Val) (addrs : Nat) (tests : List Test) : Nat :=
  if str iface .ifaceState = ascii "disable" then 1
  else if addrs = 0 then 0
  else addrs + 1 + tests.countP (Test.counts iface) + ifaceGetCommonParamCount iface

def recordCount (iface : Field → Val) : Nat :=
  match ifaceGetIptype iface with
  | .ipv4 => familyCount iface (ipv4AddrCount iface) ipv4Tests
  | .ipv6 =>
    familyCount iface
      (ipv6AddrCount iface (addrAuto iface) .ifaceIpaddress +
        ipv6AddrCount iface (linklocalAuto iface) .ifaceIpv6Linklocal +
        ipv6AddrCount iface (routerAuto iface) .ifaceIpv6Router) ipv6Tests

def countRecord (primary : Field → Val) (count : Nat) (iface : Field → Val) : Nat :=
  if str primary .ifaceHwaddress ≠ str iface .ifaceHwaddress then count
  else count + recordCount iface

def ifaceGetParamCount (iface : Field → Val) (ifaceAll : Bool) (ifaces : List (Field → Val)) :
    Nat :=
  if ifaceAll then ifaces.foldl (countRecord iface) 0 else countRecord iface 0 iface

/-! ### The buffers that a list of fills leaves -/

@[simp] theorem isFilled_filled (p : ParamInfo) : (Fill.filled p).isFilled = true := rfl

@[simp] theorem isFilled_freed : Fill.freed.isFilled = false := rfl

@[simp] theorem isFilled_untouched : Fill.untouched.isFilled = false := rfl

theorem used_foldl (fills : List Fill) (b : Iovs) :
    (fills.foldl Iovs.put b).used.length = b.used.length + fills.countP Fill.isFilled := by
  induction fills generalizing b with
  | nil => rfl
  | cons f fills ih =>
    rw [foldl_cons, ih]
    cases f with
    | untouched => simp [Iovs.put]
    | freed => simp [Iovs.put]
    | filled p =>
      simp only [Iovs.put, length_append, length_singleton, countP_cons,
        isFilled_filled, if_true]
      omega

/-- Whether the buffer after those in use has been written, once one more fill is made. -/
def spoil (e : Bool) : Fill → Bool
  | .untouched => e
  | .freed => true
  | .filled _ => false

/-- Only the first buffer that is not in use can have been written. -/
def Iovs.Tight (b : Iovs) (e : Bool) : Prop := b.written = b.used.length + e.toNat

theorem Iovs.Tight.put {b : Iovs} {e : Bool} (h : b.Tight e) (f : Fill) :
    (b.put f).Tight (spoil e f) := by
  have he := Bool.toNat_le e
  unfold Iovs.Tight at h ⊢
  cases f with
  | untouched => exact h
  | freed => simp only [Iovs.put, spoil, Bool.toNat_true]; omega
  | filled p => simp only [Iovs.put, spoil, length_append, length_cons,
      length_nil, Bool.toNat_false]; omega

theorem Iovs.Tight.foldl (fills : List Fill) {b : Iovs} {e : Bool} (h : b.Tight e) :
    (fills.foldl Iovs.put b).Tight (fills.foldl spoil e) := by
  induction fills generalizing b e with
  | nil => exact h
  | cons f fills ih => exact ih (h.put f)

/-! ### One item and its test -/

def Item.test : Item → Test
  | .state _ _ f => .state f
  | .int _ _ _ f => .int f
  | .text _ f => .text f

def Test.field : Test → Field
  | .state f => f
  | .int f => f
  | .text f => f

variable (inet : Inet) (iptype : IfaceType) (iface r : Field → Val) {f : Field} (e : Bool)
  (ifaces : List (Field → Val))

/-- An item is filled exactly if its field would be counted. -/
theorem isFilled_fill (item : Item) :
    (item.fill iptype iface).isFilled = item.test.counts iface := by
  cases item with
  | state param paramType f =>
    simp only [Item.fill, ifaceFillParamState, Item.test, Test.counts]
    by_cases hnil : str iface f = []
    · rw [if_pos hnil, hnil]
      rfl
    · rw [if_neg hnil]
      by_cases hoff : str iface f = ascii "disable"
      · simp [hoff]
      · rw [if_neg hoff]
        by_cases hon : str iface f = ascii "enable"
        · simp [hon]
        · simp [hoff, hon]
  | int param paramType w f =>
    by_cases h : num iface f = 0 <;> simp [Item.fill, ifaceFillIntParamVal, Item.test,
      Test.counts, h]
  | text param f =>
    by_cases h : str iface f = [] <;> simp [Item.fill, ifaceFillStrParamVal, Item.test,
      Test.counts, h]

theorem countP_fill (items : List Item) :
    (items.map (Item.fill iptype iface)).countP Fill.isFilled =
      (items.map Item.test).countP (Test.counts iface) := by
  rw [countP_map, countP_map]
  exact countP_congr fun item _ => by
    simp only [Function.comp_apply, isFilled_fill]

/-- The two lists of a family hold the same fields. -/
theorem ipv4_perm : (ipv4Items.map Item.test).Perm ipv4Tests := by decide

theorem ipv6_perm : (ipv6Items.map Item.test).Perm ipv6Tests := by decide

theorem common_perm :
    ((mtuItem :: portItem :: sessionItems).map Item.test).Perm commonTests := by decide

/-! ### The default port -/

theorem withPort_of_ne (h : f ≠ .ifacePort) :
    withPort r f = r f := by
  unfold withPort
  split
  · exact Function.update_of_ne h _ _
  · rfl

theorem str_withPort (h : f ≠ .ifacePort) :
    str (withPort r) f = str r f := by
  unfold str
  rw [withPort_of_ne r h]

theorem num_withPort (h : f ≠ .ifacePort) :
    num (withPort r) f = num r f := by
  unfold num
  rw [withPort_of_ne r h]

theorem port_withPort : num (withPort r) .ifacePort ≠ 0 := by
  unfold withPort
  split
  · simp [num]
  · assumption

theorem counts_withPort {t : Test} (h : t.field ≠ .ifacePort) :
    t.counts (withPort r) = t.counts r := by
  have hstr := str_withPort r h
  have hnum := num_withPort r h
  cases t <;> simp only [Test.field] at hstr hnum <;> simp only [Test.counts, hstr, hnum]

theorem countP_withPort (tests : List Test)
    (h : ∀ t ∈ tests, t.field ≠ .ifacePort) :
    tests.countP (Test.counts (withPort r)) = tests.countP (Test.counts r) :=
  countP_congr fun t ht => by rw [counts_withPort r (h t ht)]

theorem iptype_withPort : ifaceGetIptype (withPort r) = ifaceGetIptype r := by
  have haddr := str_withPort r (f := .ifaceIpaddress) (by decide)
  have hname := str_withPort r (f := .ifaceName) (by decide)
  have hboot := str_withPort r (f := .ifaceBootproto) (by decide)
  simp only [ifaceGetIptype, haddr, hname, hboot]

/-! ### What is counted and not filled, and the other way round -/

/-- A user's IPv4 address that is counted and then refused. -/
def refused4 (inet : Inet) (iface : Field → Val) (f : Field) : Bool :=
  strstr (str iface f) (ascii ".") &&
    match inet.pton4 (str iface f) with
    | none => true
    | some a => ∀ i, a i = 0

/-- A user's IPv6 address that is counted and then refused. -/
def refused6 (inet : Inet) (iface : Field → Val) (auto : Bool) (f : Field) : Bool :=
  !auto && strstr (str iface f) (ascii ":") && (inet.pton6 (str iface f)).isNone

def refusedAddrs (inet : Inet) (iface : Field → Val) : Nat :=
  match ifaceGetIptype iface with
  | .ipv4 =>
    if strstr (str iface .ifaceBootproto) (ascii "dhcp") then 0
    else (refused4 inet iface .ifaceIpaddress).toNat +
      (refused4 inet iface .ifaceSubnetMask).toNat + (refused4 inet iface .ifaceGateway).toNat
  | .ipv6 =>
    (refused6 inet iface (addrAuto iface) .ifaceIpaddress).toNat +
      (refused6 inet iface (linklocalAuto iface) .ifaceIpv6Linklocal).toNat +
      (refused6 inet iface (routerAuto iface) .ifaceIpv6Router).toNat

/-- Some address of the record's family is configured. -/
def hasAddr (iface : Field → Val) : Bool :=
  match ifaceGetIptype iface with
  | .ipv4 =>
    strstr (str iface .ifaceBootproto) (ascii "dhcp") ||
      strstr (str iface .ifaceIpaddress) (ascii ".")
  | .ipv6 =>
    (addrAuto iface || strstr (str iface .ifaceIpaddress) (ascii ":")) ||
      (linklocalAuto iface || strstr (str iface .ifaceIpv6Linklocal) (ascii ":")) ||
      (routerAuto iface || strstr (str iface .ifaceIpv6Router) (ascii ":"))

def Applied (iface : Field → Val) : Prop :=
  str iface .ifaceState ≠ ascii "disable" ∧ hasAddr iface = true

instance (iface : Field → Val) : Decidable (Applied iface) := inferInstanceAs (Decidable (_ ∧ _))

def defaulted (iface : Field → Val) : Nat :=
  if Applied iface ∧ num iface .ifacePort = 0 then 1 else 0

/-- The parameters that are counted for a record and not filled: a state of the interface or of
its VLAN that says nothing, and addresses that are refused. -/
def unfilled (inet : Inet) (iface : Field → Val) : Nat :=
  if Applied iface then
    (if str iface .ifaceState = ascii "enable" then 0 else 1) +
      (if str iface .ifaceVlanState = ascii "disable" ∨
          str iface .ifaceVlanState = ascii "enable" then 0 else 1) +
      refusedAddrs inet iface
  else 0

theorem isFilled_setIpv4Addr (param : Param) (f : Field) :
    (setIpv4Addr inet iface param f).isFilled.toNat + (refused4 inet iface f).toNat =
      if strstr (str iface f) (ascii ".") then 1 else 0 := by
  unfold setIpv4Addr refused4
  cases hdot : strstr (str iface f) (ascii ".") with
  | false => rfl
  | true =>
    cases haddr : inet.pton4 (str iface f) with
    | none => rfl
    | some a => by_cases hzero : ∀ i, a i = 0 <;> simp [hzero]

theorem countP_ipv6AddrFills (auto : Bool) {autocfg : Fill}
    (h : autocfg.isFilled = true) (param : Param) (f : Field) :
    (ipv6AddrFills inet iface auto autocfg param f).countP Fill.isFilled +
      (refused6 inet iface auto f).toNat = ipv6AddrCount iface auto f := by
  unfold ipv6AddrFills ipv6AddrCount refused6
  cases auto with
  | true => simp [h]
  | false =>
    cases hcolon : strstr (str iface f) (ascii ":") with
    | false => rfl
    | true =>
      cases haddr : inet.pton6 (str iface f) with
      | none => simp [setIpv6Addr, hcolon, haddr, h]
      | some a => simp [setIpv6Addr, hcolon, haddr, countP_cons, h]

theorem countP_ipv4Fills {iface : Field → Val}
    (hw : ifaceGetIptype iface = .ipv4)
    (h : hasAddr iface = true) :
    (ipv4Fills inet iface).countP Fill.isFilled + refusedAddrs inet iface =
      ipv4AddrCount iface := by
  unfold ipv4Fills ipv4AddrCount refusedAddrs
  simp only [hasAddr, hw, Bool.or_eq_true] at h ⊢
  by_cases hdhcp : strstr (str iface .ifaceBootproto) (ascii "dhcp")
  · simp [hdhcp, ifaceFillNetBootproto]
  · have hdot := h.resolve_left hdhcp
    have haddr := isFilled_setIpv4Addr inet iface .ipv4Addr .ifaceIpaddress
    have hmask := isFilled_setIpv4Addr inet iface .ipv4Subnet .ifaceSubnetMask
    have hgw := isFilled_setIpv4Addr inet iface .ipv4Gw .ifaceGateway
    rw [if_pos hdot] at haddr
    rw [if_neg hdhcp, if_neg hdhcp, if_neg hdhcp, if_pos hdot, if_pos hdot, ← hmask, ← hgw]
    simp only [countP_cons, countP_nil, ifaceFillNetBootproto, isFilled_filled,
      if_true, Bool.toNat] at *
    simp only [Bool.cond_eq_ite] at *
    omega

theorem countP_ipv6Fills {iface : Field → Val}
    (hw : ifaceGetIptype iface = .ipv6) :
    (ipv6Fills inet iface).countP Fill.isFilled + refusedAddrs inet iface =
      ipv6AddrCount iface (addrAuto iface) .ifaceIpaddress +
        ipv6AddrCount iface (linklocalAuto iface) .ifaceIpv6Linklocal +
        ipv6AddrCount iface (routerAuto iface) .ifaceIpv6Router := by
  unfold ipv6Fills refusedAddrs
  have haddr : (ifaceFillNetAutocfg iface).isFilled = true := rfl
  have hauto (param : Param) (auto : Bool) : (fillAutocfg param auto).isFilled = true := rfl
  rw [hw, countP_append, countP_append,
    ← countP_ipv6AddrFills inet iface _ haddr .ipv6Addr,
    ← countP_ipv6AddrFills inet iface _ (hauto .ipv6LinklocalAutocfg (linklocalAuto iface))
      .ipv6Linklocal,
    ← countP_ipv6AddrFills inet iface _ (hauto .ipv6RouterAutocfg (routerAuto iface))
      .ipv6Router]
  dsimp only
  omega

/-- The state, the VLAN and the rest that both families have. -/
theorem countP_commonFills {r : Field → Val}
    (h : str r .ifaceState ≠ ascii "disable") :
    (commonFills iptype (withPort r)).countP Fill.isFilled +
        ((if str r .ifaceState = ascii "enable" then 0 else 1) +
          (if str r .ifaceVlanState = ascii "disable" ∨
              str r .ifaceVlanState = ascii "enable" then 0 else 1)) =
      1 + ifaceGetCommonParamCount r + (if num r .ifacePort = 0 then 1 else 0) := by
  have hstate := str_withPort r (f := .ifaceState) (by decide)
  have hvlan := str_withPort r (f := .ifaceVlanState) (by decide)
  have hid := num_withPort r (f := .ifaceVlanId) (by decide)
  have htests : commonTests.countP (Test.counts (withPort r)) =
      commonTests.countP (Test.counts r) + (if num r .ifacePort = 0 then 1 else 0) := by
    have hrest := countP_withPort r (commonTests.eraseIdx 1) (by decide)
    have hport : (Test.int .ifacePort).counts (withPort r) = true := by
      simp [Test.counts, port_withPort]
    have hperm : commonTests.Perm (.int .ifacePort :: commonTests.eraseIdx 1) := by decide
    rw [hperm.countP_eq, hperm.countP_eq, countP_cons, countP_cons, hrest, hport]
    by_cases hzero : num r .ifacePort = 0 <;> simp [Test.counts, hzero]
  have htag : (if str r .ifaceVlanState ≠ ascii "disable" ∧ num r .ifaceVlanId ≠ 0 then
        [ifaceFillVlanId iptype (withPort r)] else []).countP Fill.isFilled =
      if str r .ifaceVlanState ≠ ascii "disable" ∧ num r .ifaceVlanId ≠ 0 then 1 else 0 := by
    split <;> rfl
  have hne : ascii "enable" ≠ ascii "disable" := by decide
  unfold commonFills ifaceGetCommonParamCount
  rw [countP_append, countP_append, countP_fill, common_perm.countP_eq, htests]
  simp only [countP_cons, countP_nil, isFilled_fill, stateItem, vlanItem, Item.test,
    Test.counts, hstate, hvlan, hid, htag]
  by_cases hoff : str r .ifaceVlanState = ascii "disable"
  · by_cases hon : str r .ifaceState = ascii "enable" <;> simp [h, hoff, hon] <;> omega
  · by_cases hid0 : num r .ifaceVlanId = 0 <;>
      by_cases hven : str r .ifaceVlanState = ascii "enable" <;>
      by_cases hon : str r .ifaceState = ascii "enable" <;>
      simp [h, hoff, hon, hid0, hven, hne] <;> omega

theorem ipv4Fills_eq_nil {inet : Inet} {iface : Field → Val}
    (hw : ifaceGetIptype iface = .ipv4) (h : hasAddr iface = false) :
    ipv4Fills inet iface = [] ∧ ipv4AddrCount iface = 0 := by
  simp only [hasAddr, hw, Bool.or_eq_false_iff] at h
  simp [ipv4Fills, ipv4AddrCount, h.1, h.2]

theorem ipv4Fills_ne_zero {iface : Field → Val}
    (hw : ifaceGetIptype iface = .ipv4) (h : hasAddr iface = true) :
    (ipv4Fills inet iface).countP Fill.isFilled ≠ 0 := by
  simp only [hasAddr, hw, Bool.or_eq_true] at h
  unfold ipv4Fills
  by_cases hdhcp : strstr (str iface .ifaceBootproto) (ascii "dhcp")
  · simp [hdhcp, ifaceFillNetBootproto]
  · simp [hdhcp, h.resolve_left hdhcp, ifaceFillNetBootproto, countP_cons]

theorem ipv6AddrFills_ne_zero {auto : Bool} {autocfg : Fill} (hfilled : autocfg.isFilled = true)
    (param : Param) (h : (auto || strstr (str iface f) (ascii ":")) = true) :
    (ipv6AddrFills inet iface auto autocfg param f).countP Fill.isFilled ≠ 0 := by
  unfold ipv6AddrFills
  cases auto with
  | true => simp [hfilled]
  | false =>
    have hcolon : strstr (str iface f) (ascii ":") = true := h
    simp [hfilled, hcolon, countP_cons]

theorem ipv6Fills_ne_zero {iface : Field → Val}
    (hw : ifaceGetIptype iface = .ipv6) (h : hasAddr iface = true) :
    (ipv6Fills inet iface).countP Fill.isFilled ≠ 0 := by
  have haddr : (ifaceFillNetAutocfg iface).isFilled = true := rfl
  have hauto (param : Param) (auto : Bool) : (fillAutocfg param auto).isFilled = true := rfl
  unfold ipv6Fills
  rw [countP_append, countP_append]
  simp only [hasAddr, hw] at h
  rcases Bool.or_eq_true _ _ |>.mp h with h' | hrouter
  · rcases Bool.or_eq_true _ _ |>.mp h' with h'' | hlocal
    · have := ipv6AddrFills_ne_zero inet iface haddr .ipv6Addr h''
      omega
    · have := ipv6AddrFills_ne_zero inet iface
        (hauto .ipv6LinklocalAutocfg (linklocalAuto iface)) .ipv6Linklocal hlocal
      omega
  · have := ipv6AddrFills_ne_zero inet iface
      (hauto .ipv6RouterAutocfg (routerAuto iface)) .ipv6Router hrouter
    omega

/-! ### One record -/

@[simp] theorem str_state_withPort :
    str (withPort r) .ifaceState = str r .ifaceState := str_withPort r (by decide)

theorem hasAddr_withPort : hasAddr (withPort r) = hasAddr r := by
  unfold hasAddr addrAuto linklocalAuto routerAuto
  simp (disch := decide) only [iptype_withPort, str_withPort]

theorem refusedAddrs_withPort :
    refusedAddrs inet (withPort r) = refusedAddrs inet r := by
  unfold refusedAddrs refused4 refused6 addrAuto linklocalAuto routerAuto
  simp (disch := decide) only [iptype_withPort, str_withPort]

/-- The addresses of the record's family, as they are filled. -/
def addrFills (inet : Inet) (iface : Field → Val) : List Fill :=
  match ifaceGetIptype iface with
  | .ipv4 => ipv4Fills inet iface
  | .ipv6 => ipv6Fills inet iface

def addrCount (iface : Field → Val) : Nat :=
  match ifaceGetIptype iface with
  | .ipv4 => ipv4AddrCount iface
  | .ipv6 =>
    ipv6AddrCount iface (addrAuto iface) .ifaceIpaddress +
      ipv6AddrCount iface (linklocalAuto iface) .ifaceIpv6Linklocal +
      ipv6AddrCount iface (routerAuto iface) .ifaceIpv6Router

def familyItems : IfaceType → List Item
  | .ipv4 => ipv4Items
  | .ipv6 => ipv6Items

def familyTests : IfaceType → List Test
  | .ipv4 => ipv4Tests
  | .ipv6 => ipv6Tests

theorem family_perm (w : IfaceType) : ((familyItems w).map Item.test).Perm (familyTests w) := by
  cases w with
  | ipv4 => exact ipv4_perm
  | ipv6 => exact ipv6_perm

theorem recordFills_eq :
    recordFills inet r =
      if str r .ifaceState = ascii "disable" then
        [stateItem.fill (ifaceGetIptype r) (withPort r)]
      else familyFills (ifaceGetIptype r) (withPort r) (addrFills inet (withPort r))
        (familyItems (ifaceGetIptype r)) := by
  simp only [recordFills, addrFills, str_state_withPort, iptype_withPort]
  cases ifaceGetIptype r <;> rfl

theorem recordCount_eq :
    recordCount r = familyCount r (addrCount r) (familyTests (ifaceGetIptype r)) := by
  simp only [recordCount, addrCount]
  cases ifaceGetIptype r <;> rfl

theorem addrCount_withPort : addrCount (withPort r) = addrCount r := by
  unfold addrCount ipv4AddrCount ipv6AddrCount addrAuto linklocalAuto routerAuto
  simp (disch := decide) only [iptype_withPort, str_withPort]

theorem ipv6Fills_eq_nil {inet : Inet} {iface : Field → Val}
    (hw : ifaceGetIptype iface = .ipv6) (h : hasAddr iface = false) :
    addrFills inet iface = [] ∧ addrCount iface = 0 := by
  simp only [hasAddr, hw, Bool.or_eq_false_iff] at h
  obtain ⟨⟨⟨ha, ha'⟩, hl, hl'⟩, hr, hr'⟩ := h
  simp [addrFills, addrCount, ipv6Fills, ipv6AddrFills, ipv6AddrCount, *]

/-- Nothing is filled for a record without an address, and nothing is counted. -/
theorem addrFills_eq_nil {iface : Field → Val} (h : hasAddr iface = false) :
    addrFills inet iface = [] ∧ addrCount iface = 0 := by
  cases hw : ifaceGetIptype iface with
  | ipv4 =>
    have hnil : ipv4Fills inet iface = [] ∧ ipv4AddrCount iface = 0 := ipv4Fills_eq_nil hw h
    simpa only [addrFills, addrCount, hw] using hnil
  | ipv6 => exact ipv6Fills_eq_nil hw h

theorem countP_addrFills {iface : Field → Val} (h : hasAddr iface = true) :
    (addrFills inet iface).countP Fill.isFilled + refusedAddrs inet iface = addrCount iface := by
  cases hw : ifaceGetIptype iface with
  | ipv4 =>
    have := countP_ipv4Fills inet hw h
    simpa only [addrFills, addrCount, hw] using this
  | ipv6 =>
    have := countP_ipv6Fills inet hw
    simpa only [addrFills, addrCount, hw] using this

theorem addrFills_ne_zero {iface : Field → Val} (h : hasAddr iface = true) :
    (addrFills inet iface).countP Fill.isFilled ≠ 0 := by
  cases hw : ifaceGetIptype iface with
  | ipv4 => simpa only [addrFills, hw] using ipv4Fills_ne_zero inet hw h
  | ipv6 => simpa only [addrFills, hw] using ipv6Fills_ne_zero inet hw h

/-- What is filled for a record is what is counted, but for the port and what is refused. -/
theorem countP_recordFills :
    (recordFills inet r).countP Fill.isFilled + unfilled inet r =
      recordCount r + defaulted r := by
  rw [recordFills_eq, recordCount_eq]
  unfold unfilled defaulted familyCount
  by_cases hoff : str r .ifaceState = ascii "disable"
  · have hna : ¬ Applied r := fun ha => ha.1 hoff
    simp [hoff, hna, stateItem, isFilled_fill, Item.test, Test.counts]
  · cases haddr : hasAddr r with
    | false =>
      have hna : ¬ Applied r := fun ha => Bool.false_ne_true (haddr.symm.trans ha.2)
      have hnil := addrFills_eq_nil inet ((hasAddr_withPort r).trans haddr)
      have hzero := (addrFills_eq_nil inet haddr).2
      simp [hoff, hna, familyFills, hnil.1, hzero]
    | true =>
      have ha : Applied r := ⟨hoff, haddr⟩
      have hwith := (hasAddr_withPort r).trans haddr
      have hfill := countP_addrFills inet hwith
      have hne := addrFills_ne_zero inet hwith
      have hcommon := countP_commonFills (ifaceGetIptype r) hoff
      have hitems : ((familyItems (ifaceGetIptype r)).map (Item.fill (ifaceGetIptype r)
            (withPort r))).countP Fill.isFilled =
          (familyTests (ifaceGetIptype r)).countP (Test.counts r) := by
        rw [countP_fill, (family_perm _).countP_eq, countP_withPort]
        cases ifaceGetIptype r <;> decide
      rw [refusedAddrs_withPort, addrCount_withPort] at hfill
      have hcount : addrCount r ≠ 0 := by omega
      simp only [hoff, hcount, ha, hne, familyFills, if_false, if_true, true_and,
        countP_append, hitems]
      omega

/-! ### A buffer that is written and not used

A value that a fill function refuses leaves the first buffer that is not in use written; the next
value that is filled takes that buffer. So it matters what stands last. -/

/-- The field holds something, so a buffer is allocated for it. -/
def Test.isSet (iface : Field → Val) : Test → Bool
  | .state f => str iface f ≠ []
  | .int f => num iface f ≠ 0
  | .text f => str iface f ≠ []

theorem isSet_withPort {t : Test} (h : t.field ≠ .ifacePort) :
    t.isSet (withPort r) = t.isSet r := by
  have hstr := str_withPort r h
  have hnum := num_withPort r h
  cases t <;> simp only [Test.field] at hstr hnum <;> simp only [Test.isSet, hstr, hnum]

/-- The last of the fields that holds something holds a word that is refused. -/
def endsRefused (iface : Field → Val) (tests : List Test) : Bool :=
  match (tests.filter (Test.isSet iface)).getLast? with
  | none => false
  | some t => !t.counts iface

/-- The last parameter that is tried for the record is refused. -/
def dangling (iface : Field → Val) : Bool :=
  endsRefused iface (sessionItems.map Item.test)

/-- The record gives the last buffer that is written: it is disabled, or it has an address. -/
def touches (iface : Field → Val) : Bool :=
  str iface .ifaceState = ascii "disable" || hasAddr iface

/-- The last record with buffers leaves one that is written and not used. -/
def endsDangling (ifaces : List (Field → Val)) : Bool :=
  match (ifaces.filter touches).getLast? with
  | none => false
  | some r => decide (str r .ifaceState ≠ ascii "disable") && dangling r

theorem fill_eq_untouched (item : Item) :
    item.fill iptype iface = .untouched ↔ item.test.isSet iface = false := by
  cases item with
  | state param paramType f =>
    simp only [Item.fill, ifaceFillParamState, Item.test, Test.isSet]
    split_ifs <;> simp_all
  | int param paramType w f =>
    by_cases h : num iface f = 0 <;> simp [Item.fill, ifaceFillIntParamVal, Item.test,
      Test.isSet, h]
  | text param f =>
    by_cases h : str iface f = [] <;> simp [Item.fill, ifaceFillStrParamVal, Item.test,
      Test.isSet, h]

theorem spoil_fill (item : Item) :
    spoil e (item.fill iptype iface) =
      if item.test.isSet iface then !item.test.counts iface else e := by
  have hnone := fill_eq_untouched iptype iface item
  rw [← isFilled_fill iptype]
  cases hfill : item.fill iptype iface <;> simp_all [spoil]

theorem foldl_spoil_fill (items : List Item) :
    (items.map (Item.fill iptype iface)).foldl spoil false =
      endsRefused iface (items.map Item.test) := by
  induction items using List.reverseRecOn with
  | nil => rfl
  | append_singleton items item ih =>
    simp only [map_append, map_cons, map_nil, foldl_append, foldl_cons,
      foldl_nil, spoil_fill, ih]
    unfold endsRefused
    rw [filter_append]
    by_cases hset : item.test.isSet iface = true
    · simp [hset]
    · simp [hset]

theorem dangling_withPort : dangling (withPort r) = dangling r := by
  have hport : ∀ t ∈ sessionItems.map Item.test, t.field ≠ .ifacePort := by decide
  have hfilter : (sessionItems.map Item.test).filter (Test.isSet (withPort r)) =
      (sessionItems.map Item.test).filter (Test.isSet r) :=
    filter_congr fun t ht => isSet_withPort r (hport t ht)
  unfold dangling endsRefused
  rw [hfilter]
  cases hlast : ((sessionItems.map Item.test).filter (Test.isSet r)).getLast? with
  | none => rfl
  | some t =>
    have hmem := mem_of_mem_filter (mem_of_getLast? hlast)
    simp only [counts_withPort r (hport t hmem)]

theorem foldl_spoil_common :
    (commonFills iptype (withPort r)).foldl spoil e = dangling r := by
  have hport (d : Bool) : spoil d (portItem.fill iptype (withPort r)) = false := by
    rw [spoil_fill]
    simp [portItem, Item.test, Test.isSet, Test.counts, port_withPort]
  unfold commonFills
  rw [foldl_append, map_cons, map_cons, foldl_cons, foldl_cons, hport,
    foldl_spoil_fill]
  exact dangling_withPort r

theorem foldl_spoil_record :
    (recordFills inet r).foldl spoil e =
      if touches r then decide (str r .ifaceState ≠ ascii "disable") && dangling r else e := by
  rw [recordFills_eq]
  unfold touches
  by_cases hoff : str r .ifaceState = ascii "disable"
  · have hset : ascii "disable" ≠ [] := by decide
    simp [hoff, hset, stateItem, spoil_fill, Item.test, Test.isSet, Test.counts]
  · cases haddr : hasAddr r with
    | false =>
      have hnil := addrFills_eq_nil inet ((hasAddr_withPort r).trans haddr)
      simp [hoff, familyFills, hnil.1]
    | true =>
      have hne := addrFills_ne_zero inet ((hasAddr_withPort r).trans haddr)
      simp [hoff, hne, familyFills, foldl_spoil_common]

/-! ### All records -/

/-- The records whose parameters are applied. -/
def applied (iface : Field → Val) (ifaceAll : Bool) (ifaces : List (Field → Val)) :
    List (Field → Val) :=
  if ifaceAll then
    ifaces.filter fun r => str iface .ifaceHwaddress = str r .ifaceHwaddress
  else [iface]

theorem foldl_buildRecord
    (b : Iovs) :
    ifaces.foldl (buildRecord inet iface) b =
      ((ifaces.filter fun r => str iface .ifaceHwaddress = str r .ifaceHwaddress).flatMap
        (recordFills inet)).foldl Iovs.put b := by
  induction ifaces generalizing b with
  | nil => rfl
  | cons r ifaces ih =>
    rw [foldl_cons, ih]
    by_cases hsame : str iface .ifaceHwaddress = str r .ifaceHwaddress
    · simp [buildRecord, hsame]
    · simp [buildRecord, hsame]

theorem ifaceBuildNetConfig_eq (ifaceAll : Bool)
    (ifaces : List (Field → Val)) :
    ifaceBuildNetConfig inet iface ifaceAll ifaces =
      ((applied iface ifaceAll ifaces).flatMap (recordFills inet)).foldl Iovs.put ⟨[], 0⟩ := by
  unfold ifaceBuildNetConfig applied
  cases ifaceAll with
  | false => simp [buildRecord]
  | true => exact foldl_buildRecord inet iface ifaces _

theorem foldl_countRecord (n : Nat) :
    ifaces.foldl (countRecord iface) n = n +
      ((ifaces.filter fun r => str iface .ifaceHwaddress = str r .ifaceHwaddress).map
        recordCount).sum := by
  induction ifaces generalizing n with
  | nil => rfl
  | cons r ifaces ih =>
    rw [foldl_cons, ih]
    by_cases hsame : str iface .ifaceHwaddress = str r .ifaceHwaddress
    · simp [countRecord, hsame, Nat.add_assoc]
    · simp [countRecord, hsame]

theorem ifaceGetParamCount_eq (ifaceAll : Bool)
    (ifaces : List (Field → Val)) :
    ifaceGetParamCount iface ifaceAll ifaces =
      ((applied iface ifaceAll ifaces).map recordCount).sum := by
  unfold ifaceGetParamCount applied
  cases ifaceAll with
  | false => simp [countRecord]
  | true => simpa using foldl_countRecord iface ifaces 0

theorem countP_flatMap (rs : List (Field → Val)) :
    (rs.flatMap (recordFills inet)).countP Fill.isFilled + (rs.map (unfilled inet)).sum =
      (rs.map recordCount).sum + (rs.map defaulted).sum := by
  induction rs with
  | nil => rfl
  | cons r rs ih =>
    have hr := countP_recordFills inet r
    simp only [flatMap_cons, countP_append, map_cons, sum_cons]
    omega

theorem foldl_spoil_flatMap (rs : List (Field → Val)) :
    (rs.flatMap (recordFills inet)).foldl spoil false = endsDangling rs := by
  induction rs using List.reverseRecOn with
  | nil => rfl
  | append_singleton rs r ih =>
    rw [flatMap_append, foldl_append, ih, flatMap_singleton, foldl_spoil_record]
    unfold endsDangling
    rw [filter_append]
    by_cases ht : touches r = true
    · simp [ht]
    · simp [ht]

/-- The buffers that are written are those that were counted exactly if the default ports, and a
last parameter that is refused, are made up for by parameters that were counted and not used. -/
theorem slots_fit_iff (inet : Inet) (iface : Field → Val) (ifaceAll : Bool)
    (ifaces : List (Field → Val)) :
    (ifaceBuildNetConfig inet iface ifaceAll ifaces).written ≤
        ifaceGetParamCount iface ifaceAll ifaces ↔
      ((applied iface ifaceAll ifaces).map defaulted).sum +
          (endsDangling (applied iface ifaceAll ifaces)).toNat ≤
        ((applied iface ifaceAll ifaces).map (unfilled inet)).sum := by
  rw [ifaceBuildNetConfig_eq, ifaceGetParamCount_eq]
  generalize applied iface ifaceAll ifaces = rs
  have hstart : Iovs.Tight ⟨[], 0⟩ false := rfl
  have htight := Iovs.Tight.foldl (rs.flatMap (recordFills inet)) hstart
  have hused := used_foldl (rs.flatMap (recordFills inet)) ⟨[], 0⟩
  have hcount := countP_flatMap inet rs
  rw [foldl_spoil_flatMap] at htight
  unfold Iovs.Tight at htight
  rw [htight, hused, length_nil]
  omega

/-- DHCP on the default port: three parameters are counted and four are written. -/
def dhcpIface : Field → Val
  | .ifaceBootproto => .text (ascii "dhcp")
  | .ifaceState => .text (ascii "enable")
  | .ifaceVlanState => .text (ascii "disable")
  | f => IdbmRecord.ifaceAlloc (ascii "qla4xxx.00:0e:1e:04:8b:2e") f

theorem default_port_overruns :
    ifaceGetParamCount dhcpIface false [] = 3 ∧
      ¬ (ifaceBuildNetConfig ⟨fun _ => none, fun _ => none⟩ dhcpIface false []).written ≤
        ifaceGetParamCount dhcpIface false [] := by decide

end NetConfig
