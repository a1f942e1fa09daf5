import OpenIscsi.Lib.CString

/-!
# Bringing up the network for boot targets

`fw_setup_nics` of `fw_entry.c` with `net_setup_netdev` of `iscsi_net_util.c`. What is
observed is the list of ioctls that change the network, in their order. Parsing of
addresses, the lookup of a VLAN device and the transport of a device are given by the
system.
-/

namespace BootNics

open CString List

/-- The fields of `boot_context` that are read here, as C strings. -/
structure BootContext where
  iface : List UInt8
  ipaddr : List UInt8
  mask : List UInt8
  gateway : List UInt8
  vlan : List UInt8
  targetIpaddr : List UInt8
  deriving DecidableEq, Repr

/-- A host route: the destination, the device, and the gateway if there is one. -/
structure Route where
  dst : UInt32
  dev : List UInt8
  gateway : Option UInt32
  deriving DecidableEq, Repr

/-- The ioctls. -/
inductive Effect where
  /-- `SIOCSIFFLAGS` with `IFF_UP` -/
  | bringUp (dev : List UInt8)
  /-- `SIOCSIFADDR` -/
  | setAddr (dev : List UInt8) (addr : UInt32)
  /-- `SIOCSIFNETMASK` -/
  | setMask (dev : List UInt8) (mask : UInt32)
  /-- `SIOCADDRT` -/
  | addRoute (r : Route)
  deriving DecidableEq, Repr

structure System where
  /-- `fw_get_targets`, with an error if there are none to be read. -/
  targets : Option (List BootContext)
  inetAton : List UInt8 → Option UInt32
  /-- `find_vlan_dev` -/
  findVlanDev : List UInt8 → Int → Option (List UInt8)
  /-- `net_get_transport_name_from_netdev` knows an offload transport. -/
  offload : List UInt8 → Bool
  /-- `iface_setup_from_boot_context` -/
  ifaceSetup : BootContext → Bool
  /-- The error of `socket`, or zero. -/
  socket : Int
  /-- The error of an ioctl after those made so far, or zero. -/
  ioctl : List Effect → Effect → Int
  /-- What `errno` holds when `inet_aton` fails on a gateway. -/
  errno : Int

def einval : Int := 22
def eexist : Int := 17
def iscsiErr : Int := 1
def iscsiErrNoObjsFound : Int := 21

/-! ## One device -/

/-- A sequence of ioctls, up to the first that fails. -/
def issue (sys : System) : List Effect → List Effect → Int × List Effect
  | done, [] => (0, done)
  | done, e :: rest =>
    if sys.ioctl done e ≠ 0 then (sys.ioctl done e, done) else issue sys (done ++ [e]) rest

/-- A route that is there already is no error. -/
def addRoute (sys : System) (done : List Effect) (r : Route) : Int × List Effect :=
  let rc := sys.ioctl done (.addRoute r)
  if rc = 0 then (0, done ++ [.addRoute r]) else if rc = eexist then (0, done) else (rc, done)

/-- The block of `net_setup_netdev` for a new interface. -/
def bringup (physdev : Option (List UInt8)) (netdev : List UInt8) (ipaddr netmask : UInt32) :
    List Effect :=
  physdev.toList.map .bringUp ++
    [.bringUp netdev, .setAddr netdev ipaddr, .setMask netdev netmask]

def routeTarget (sys : System) (done : List Effect) (netdev gateway : List UInt8)
    (ipaddr netmask target : UInt32) : Int × List Effect :=
  if target &&& netmask = ipaddr &&& netmask then addRoute sys done ⟨target, netdev, none⟩
  else
    match sys.inetAton gateway with
    | none => (sys.errno, done)
    | some gw => addRoute sys done ⟨target, netdev, some gw⟩

/-- `net_setup_netdev` once the device is known; `physdev` is there for a VLAN. -/
def setupDev (sys : System) (done : List Effect) (c : BootContext) (physdev : Option (List UInt8))
    (netdev : List UInt8) (needsBringup : Bool) : Int × List Effect :=
  if sys.socket ≠ 0 then (sys.socket, done)
  else
    match sys.inetAton c.ipaddr, sys.inetAton c.mask, sys.inetAton c.targetIpaddr with
    | some ipaddr, some netmask, some target =>
      if needsBringup then
        let r := issue sys done (bringup physdev netdev ipaddr netmask)
        if r.1 ≠ 0 then r else routeTarget sys r.2 netdev c.gateway ipaddr netmask target
      else routeTarget sys done netdev c.gateway ipaddr netmask target
    | _, _, _ => (einval, done)

def netSetupNetdev (sys : System) (done : List Effect) (c : BootContext) (needsBringup : Bool) :
    Int × List Effect :=
  if c.iface = [] then (einval, done)
  else if atoi c.vlan ≠ 0 then
    match sys.findVlanDev c.iface (atoi c.vlan) with
    | none => (einval, done)
    | some dev => setupDev sys done c (some c.iface) dev needsBringup
  else setupDev sys done c none c.iface needsBringup

/-! ## All targets -/

/-- The variables of the loop in `fw_setup_nics`. -/
structure Loop where
  ifacePrev : Option (List UInt8) := none
  needsBringup : Bool := false
  ret : Int := 0
  done : List Effect := []

def setupTarget (sys : System) (l : Loop) (c : BootContext) : Loop :=
  let l := if l.ifacePrev ≠ some c.iface then
      { l with ifacePrev := some c.iface, needsBringup := true }
    else l
  if sys.offload c.iface then if sys.ifaceSetup c then l else { l with ret := iscsiErr }
  else
    let r := netSetupNetdev sys l.done c l.needsBringup
    { l with ret := if r.1 ≠ 0 then r.1 else l.ret, done := r.2 }

def fwSetupNics (sys : System) : Int × List Effect :=
  match sys.targets with
  | none => (iscsiErrNoObjsFound, [])
  | some [] => (iscsiErrNoObjsFound, [])
  | some (c :: targets) =>
    let l := (c :: targets).foldl (setupTarget sys) {}
    (if l.ret ≠ 0 then iscsiErr else 0, l.done)

/-! ## What a target asks for -/

/-- The device that is set up for a target. -/
def device (sys : System) (c : BootContext) : List UInt8 :=
  if atoi c.vlan ≠ 0 then (sys.findVlanDev c.iface (atoi c.vlan)).getD [] else c.iface

def address (sys : System) (text : List UInt8) : UInt32 := (sys.inetAton text).getD 0

def SameSubnet (sys : System) (c : BootContext) : Prop :=
  address sys c.targetIpaddr &&& address sys c.mask = address sys c.ipaddr &&& address sys c.mask

instance (sys : System) (c : BootContext) : Decidable (SameSubnet sys c) :=
  inferInstanceAs (Decidable (_ = _))

def targetRoute (sys : System) (c : BootContext) : Route where
  dst := address sys c.targetIpaddr
  dev := device sys c
  gateway := if SameSubnet sys c then none else some (address sys c.gateway)

structure Valid (sys : System) (c : BootContext) : Prop where
  iface : c.iface ≠ []
  software : sys.offload c.iface = false
  vlan : atoi c.vlan ≠ 0 → (sys.findVlanDev c.iface (atoi c.vlan)).isSome
  ipaddr : (sys.inetAton c.ipaddr).isSome
  mask : (sys.inetAton c.mask).isSome
  targetIpaddr : (sys.inetAton c.targetIpaddr).isSome
  gateway : ¬ SameSubnet sys c → (sys.inetAton c.gateway).isSome

/-- Nothing fails. -/
structure Works (sys : System) : Prop where
  socket : sys.socket = 0
  ioctl : ∀ done e, sys.ioctl done e = 0

/-- The physical device below a VLAN. -/
def physdev (c : BootContext) : Option (List UInt8) := if atoi c.vlan ≠ 0 then some c.iface else none

/-- Everything that a target leads to when its interface is brought up. -/
def block (sys : System) (c : BootContext) : List Effect :=
  bringup (physdev c) (device sys c) (address sys c.ipaddr) (address sys c.mask) ++
    [.addRoute (targetRoute sys c)]

variable {sys : System}

theorem some_address {text : List UInt8} (h : (sys.inetAton text).isSome) :
    sys.inetAton text = some (address sys text) := by
  obtain ⟨a, ha⟩ := Option.isSome_iff_exists.mp h
  rw [address, ha]
  rfl

theorem issue_works (hw : Works sys) (done es : List Effect) :
    issue sys done es = (0, done ++ es) := by
  induction es generalizing done with
  | nil => rw [issue, append_nil]
  | cons e es ih => rw [issue, if_neg (not_not.mpr (hw.ioctl done e)), ih, append_assoc]; rfl

theorem addRoute_works (hw : Works sys) (done : List Effect) (r : Route) :
    addRoute sys done r = (0, done ++ [.addRoute r]) := by
  unfold addRoute
  dsimp only
  rw [if_pos (hw.ioctl done _)]

variable {c : BootContext}

theorem routeTarget_works (hw : Works sys) (hc : Valid sys c) (done : List Effect) :
    routeTarget sys done (device sys c) c.gateway (address sys c.ipaddr) (address sys c.mask)
        (address sys c.targetIpaddr) =
      (0, done ++ [.addRoute (targetRoute sys c)]) := by
  unfold routeTarget targetRoute
  by_cases hsame : SameSubnet sys c
  · have heq := hsame
    unfold SameSubnet at heq
    rw [if_pos hsame, if_pos heq]
    exact addRoute_works hw done _
  · have hne := hsame
    unfold SameSubnet at hne
    rw [if_neg hsame, if_neg hne, some_address (hc.gateway hsame)]
    exact addRoute_works hw done _

theorem setupDev_works (hw : Works sys) (hc : Valid sys c) (done : List Effect) :
    setupDev sys done c (physdev c) (device sys c) true = (0, done ++ block sys c) := by
  unfold setupDev
  rw [if_neg (not_not.mpr hw.socket), some_address hc.ipaddr, some_address hc.mask,
    some_address hc.targetIpaddr]
  dsimp only
  rw [if_pos rfl, issue_works hw, if_neg (not_not.mpr rfl), routeTarget_works hw hc,
    append_assoc]
  rfl

theorem netSetupNetdev_works (hw : Works sys) (hc : Valid sys c) (done : List Effect) :
    netSetupNetdev sys done c true = (0, done ++ block sys c) := by
  have hdev := setupDev_works hw hc done
  unfold netSetupNetdev
  unfold physdev device at hdev
  rw [if_neg hc.iface]
  by_cases hvlan : atoi c.vlan ≠ 0
  · obtain ⟨dev, hfind⟩ := Option.isSome_iff_exists.mp (hc.vlan hvlan)
    rw [if_pos hvlan, if_pos hvlan, hfind] at hdev
    rw [if_pos hvlan, hfind]
    exact hdev
  · rw [if_neg hvlan, if_neg hvlan] at hdev
    rw [if_neg hvlan]
    exact hdev

/-- `needs_bringup` is set by the first target and never cleared. -/
theorem setupTarget_works (hw : Works sys) (hc : Valid sys c) {l : Loop}
    (hl : l.ifacePrev ≠ none → l.needsBringup = true) (hret : l.ret = 0) :
    (setupTarget sys l c).ifacePrev ≠ none ∧ (setupTarget sys l c).needsBringup = true ∧
      (setupTarget sys l c).ret = 0 ∧
      (setupTarget sys l c).done = l.done ++ block sys c := by
  unfold setupTarget
  dsimp only
  rw [if_neg (by rw [hc.software]; decide)]
  by_cases hprev : l.ifacePrev ≠ some c.iface
  · rw [if_pos hprev]
    dsimp only
    rw [netSetupNetdev_works hw hc, if_neg (not_not.mpr rfl)]
    exact ⟨by simp, rfl, hret, rfl⟩
  · have hsame : l.ifacePrev ≠ none := by
      rw [not_not.mp hprev]
      simp
    rw [if_neg hprev]
    dsimp only
    rw [hl hsame, netSetupNetdev_works hw hc, if_neg (not_not.mpr rfl)]
    exact ⟨hsame, rfl, hret, rfl⟩

/-- Every target brings its interface up again. -/
theorem setupTargets_works (hw : Works sys) (targets : List BootContext)
    (hvalid : ∀ c ∈ targets, Valid sys c) {l : Loop}
    (hl : l.ifacePrev ≠ none → l.needsBringup = true) (hret : l.ret = 0) :
    (targets.foldl (setupTarget sys) l).ret = 0 ∧
      (targets.foldl (setupTarget sys) l).done = l.done ++ targets.flatMap (block sys) := by
  induction targets generalizing l with
  | nil => exact ⟨hret, by simp⟩
  | cons c targets ih =>
    obtain ⟨_, hneeds, hzero, hdone⟩ := setupTarget_works hw (hvalid c mem_cons_self) hl hret
    obtain ⟨hr, hd⟩ := ih (fun d hd => hvalid d (mem_cons_of_mem _ hd)) (fun _ => hneeds) hzero
    refine ⟨hr, ?_⟩
    rw [foldl_cons, hd, hdone, flatMap_cons, append_assoc]

theorem fwSetupNics_works (hw : Works sys) {targets : List BootContext}
    (htargets : sys.targets = some targets) (hvalid : ∀ c ∈ targets, Valid sys c) :
    (fwSetupNics sys).2 = targets.flatMap (block sys) := by
  unfold fwSetupNics
  rw [htargets]
  cases targets with
  | nil => rfl
  | cons c targets =>
    obtain ⟨_, hdone⟩ := setupTargets_works hw (c :: targets) hvalid (l := {})
      (fun h => absurd rfl h) rfl
    dsimp only
    rw [hdone]
    rfl

/-! ## The order of effects -/

def Effect.setsAddr (dev : List UInt8) : Effect → Bool
  | .setAddr d _ => d = dev
  | _ => false

def Effect.route : Effect → Option Route
  | .addRoute r => some r
  | _ => none

structure ConfiguredOnce (sys : System) (targets : List BootContext) (es : List Effect) : Prop where
  once : ∀ c ∈ targets, es.countP (Effect.setsAddr (device sys c)) = 1
  before : ∀ earlier r later, es = earlier ++ .addRoute r :: later →
    ∃ e ∈ earlier, Effect.setsAddr r.dev e = true
  routes : es.filterMap Effect.route = targets.map (targetRoute sys)

theorem block_countP (sys : System) (c : BootContext) (dev : List UInt8) :
    (block sys c).countP (Effect.setsAddr dev) = if device sys c = dev then 1 else 0 := by
  unfold block bringup
  cases physdev c <;>
    simp [countP_cons, Effect.setsAddr]

theorem block_routes (sys : System) (c : BootContext) :
    (block sys c).filterMap Effect.route = [targetRoute sys c] := by
  unfold block bringup
  cases physdev c <;> rfl

theorem blocks_countP (sys : System) (targets : List BootContext) (dev : List UInt8) :
    (targets.flatMap (block sys)).countP (Effect.setsAddr dev) =
      (targets.map (device sys)).count dev := by
  induction targets with
  | nil => rfl
  | cons c targets ih =>
    rw [flatMap_cons, countP_append, ih, block_countP, map_cons, count_cons]
    by_cases h : device sys c = dev
    · rw [if_pos h, if_pos (beq_iff_eq.mpr h)]
      omega
    · rw [if_neg h, if_neg (by simpa using h)]
      omega

theorem blocks_routes (sys : System) (targets : List BootContext) :
    (targets.flatMap (block sys)).filterMap Effect.route = targets.map (targetRoute sys) := by
  induction targets with
  | nil => rfl
  | cons c targets ih =>
    rw [flatMap_cons, filterMap_append, ih, block_routes, map_cons]
    rfl

variable {r : Route}

theorem bringup_no_route {p : Option (List UInt8)} {dev : List UInt8} {a m : UInt32} :
    Effect.addRoute r ∉ bringup p dev a m := by
  unfold bringup
  cases p <;> simp

/-- Within a block the address comes before the route. -/
theorem block_before {earlier later : List Effect}
    (h : block sys c = earlier ++ .addRoute r :: later) :
    ∃ e ∈ earlier, Effect.setsAddr r.dev e = true := by
  have hsplit : earlier = bringup (physdev c) (device sys c) (address sys c.ipaddr)
      (address sys c.mask) ∧ r = targetRoute sys c := by
    rw [block, append_eq_append_iff] at h
    rcases h with ⟨l, hearlier, hlater⟩ | ⟨l, hbring, hlater⟩
    · cases l with
      | nil =>
        rw [append_nil] at hearlier
        exact ⟨hearlier, Effect.addRoute.inj (List.cons.inj hlater).1.symm⟩
      | cons e l =>
        have hnil := (List.cons.inj hlater).2
        exact absurd hnil (by simp)
    · cases l with
      | nil =>
        rw [append_nil] at hbring
        exact ⟨hbring.symm, Effect.addRoute.inj (List.cons.inj hlater).1⟩
      | cons e l =>
        have he := (List.cons.inj hlater).1
        have hmem : Effect.addRoute r ∈ earlier ++ e :: l := by simp [he]
        rw [← hbring] at hmem
        exact absurd hmem bringup_no_route
  obtain ⟨rfl, rfl⟩ := hsplit
  refine ⟨.setAddr (device sys c) (address sys c.ipaddr), ?_, by simp [Effect.setsAddr, targetRoute]⟩
  simp [bringup]

theorem blocks_before (sys : System) (targets : List BootContext) {earlier later : List Effect}
    (h : targets.flatMap (block sys) = earlier ++ .addRoute r :: later) :
    ∃ e ∈ earlier, Effect.setsAddr r.dev e = true := by
  induction targets generalizing earlier with
  | nil => exact absurd h (by simp)
  | cons c targets ih =>
    rw [flatMap_cons, append_eq_append_iff] at h
    rcases h with ⟨l, rfl, hrest⟩ | ⟨l, hblock, hlater⟩
    · obtain ⟨e, he, hsets⟩ := ih hrest
      exact ⟨e, mem_append_right _ he, hsets⟩
    · cases l with
      | nil =>
        rw [append_nil] at hblock
        have hstart : targets.flatMap (block sys) = [] ++ .addRoute r :: later := hlater.symm
        obtain ⟨e, he, _⟩ := ih hstart
        exact absurd he not_mem_nil
      | cons e l =>
        obtain ⟨rfl, _⟩ := List.cons.inj hlater
        exact block_before hblock

/-- With software interfaces, valid addresses and ioctls that work, every interface is
configured once exactly if no two targets share one. -/
theorem configured_once_iff (sys : System) (hw : Works sys) (targets : List BootContext)
    (htargets : sys.targets = some targets) (hvalid : ∀ c ∈ targets, Valid sys c) :
    ConfiguredOnce sys targets (fwSetupNics sys).2 ↔ (targets.map (device sys)).Nodup := by
  rw [fwSetupNics_works hw htargets hvalid, nodup_iff_count_eq_one]
  constructor
  · rintro ⟨honce, _, _⟩ dev hdev
    obtain ⟨c, hc, rfl⟩ := mem_map.mp hdev
    rw [← blocks_countP]
    exact honce c hc
  · intro hcount
    refine ⟨?_, fun earlier r later h => blocks_before sys targets h, blocks_routes sys targets⟩
    intro c hc
    rw [blocks_countP]
    exact hcount _ (mem_map_of_mem hc)

/-- A system in which every text is an address of one byte, and nothing fails. -/
def plainSystem (targets : List BootContext) : System where
  targets := some targets
  inetAton := fun text => some (UInt32.ofNat (text.headD 0).toNat)
  findVlanDev := fun _ _ => none
  offload := fun _ => false
  ifaceSetup := fun _ => true
  socket := 0
  ioctl := fun _ _ => 0
  errno := 0

/-- A target at this address, through this interface. -/
def plainTarget (iface target : UInt8) : BootContext := ⟨[iface], [1], [240], [9], [], [target]⟩

theorem plainTarget_valid (targets : List BootContext) (iface target : UInt8) :
    Valid (plainSystem targets) (plainTarget iface target) where
  iface := by simp [plainTarget]
  software := rfl
  vlan := fun h => absurd rfl h
  ipaddr := rfl
  mask := rfl
  targetIpaddr := rfl
  gateway := fun _ => rfl

/-- Two targets on two interfaces, one of them behind the gateway. -/
theorem configured_once_two :
    ConfiguredOnce (plainSystem [plainTarget 1 2, plainTarget 2 100])
      [plainTarget 1 2, plainTarget 2 100]
      (fwSetupNics (plainSystem [plainTarget 1 2, plainTarget 2 100])).2 :=
  (configured_once_iff _ ⟨rfl, fun _ _ => rfl⟩ _ rfl
    (fun c hc => by
      rcases mem_cons.mp hc with rfl | hc
      · exact plainTarget_valid _ 1 2
      · rw [mem_singleton.mp hc]
        exact plainTarget_valid _ 2 100)).mpr (by decide)

/-- Two targets on one interface: it gets its address again after the first route. -/
theorem shared_nic_set_twice :
    (fwSetupNics (plainSystem [plainTarget 1 2, plainTarget 1 3])).2 =
      [.bringUp [1], .setAddr [1] 1, .setMask [1] 240, .addRoute ⟨2, [1], none⟩,
        .bringUp [1], .setAddr [1] 1, .setMask [1] 240, .addRoute ⟨3, [1], none⟩] := by
  decide

end BootNics
