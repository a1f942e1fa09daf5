import OpenIscsi.NicLookup

/-!
# Received frames

`process_packets` of `nic.c`: a frame is read into a packet of the free queue and given to the
stack of an interface, which is looked up in the main loop and given by the loops that
acquire an address. Locking a mutex that is held or unlocking one that is not is no step.
-/

namespace NicReceive

open NicTree NicLookup

/-- The ways into a stack: `uip_input`, with `uip_arp_ipin` for IPv4, and `uip_arp_arpin`. -/
inductive Input
  | ipv6 | ipv4 | arp
  deriving DecidableEq

/-- The address family of the type. -/
def Input.afType : Input → Nat
  | .ipv6 => afInet6
  | .ipv4 => afInet
  | .arp => afInet

/-- What the driver reads: its result, and the packet it fills. -/
structure Frame where
  rc : Int
  bufSize : Nat
  vlanTag : Nat
  buf : List UInt8

def Frame.vlanId (r : Frame) : Nat := r.vlanTag % 0x1000

/-- The two bytes of the type, in network order. -/
def Frame.etherType (r : Frame) (strip : Bool) : Nat :=
  let start := if r.vlanId = 0 ∨ strip = true then 12 else 16
  (r.buf.getD start 0).toNat * 256 + (r.buf.getD (start + 1) 0).toNat

/-- The switch over the type. -/
def Frame.input (r : Frame) (strip : Bool) : Option Input :=
  if r.etherType strip = 0x86dd then some .ipv6
  else if r.etherType strip = 0x0800 then some .ipv4
  else if r.etherType strip = 0x0806 then some .arp
  else none

def Frame.arrived (r : Frame) : Bool := r.rc != 0 && 0 < r.bufSize

/-- What the thread has: the free queue, `nic_mutex`, and the frames given to stacks. -/
structure Thread where
  free : List Nat
  held : Bool
  delivered : List (Nat × Input)

def Thread.lock (s : Thread) : Option Thread :=
  if s.held then none else some { s with held := true }

def Thread.unlock (s : Thread) : Option Thread :=
  if s.held then some { s with held := false } else none

def einval : Int := 22

def enomem : Int := 12

def target (n : Nic) (given : Option Nat) (r : Frame) (input : Input) : Option Nat :=
  match given with
  | some i => if r.vlanId ≠ (n.iface i).vlanId then none else some i
  | none => nicFindNicIface n ⟨input.afType, r.vlanId, ifaceNumInvalid, ipConfigOff⟩

/-- The part behind the lock of `nic_mutex`. -/
def deliver (n : Nic) (given : Option Nat) (r : Frame) (input : Input) (s : Thread) :
    Option (Int × Thread) :=
  match target n given r input with
  | none => s.unlock.map (fun s => (einval, s))
  | some i =>
    Thread.unlock { s with delivered := s.delivered ++ [(i, input)] } |>.map (fun s => (r.rc, s))

def processPackets (n : Nic) (strip : Bool) (r : Frame) (given : Option Nat) (s : Thread) :
    Option (Int × Thread) :=
  match s.free with
  | [] => some (-enomem, s)
  | pkt :: free => do
    let s := { s with free := free }
    let s ← s.lock
    -- `ops->read`
    let s ← s.unlock
    let (rc, s) ←
      if r.arrived then
        match r.input strip with
        | none => some (r.rc, s)
        | some input => s.lock.bind (deliver n given r input)
      else some (r.rc, s)
    return (rc, { s with free := pkt :: s.free })

/-! ## Isolation -/

def reaches (n : Nic) (strip : Bool) (r : Frame) (given : Option Nat) (s : Thread) :
    Option (Nat × Input) :=
  if s.free ≠ [] ∧ r.arrived then
    (r.input strip).bind (fun input => (target n given r input).map (fun i => (i, input)))
  else none

/-- A call ends with the packet back in the queue and the mutex released. -/
theorem processPackets_eq (n : Nic) (strip : Bool) (r : Frame) (given : Option Nat) {s : Thread}
    (hheld : s.held = false) :
    ∃ rc, processPackets n strip r given s =
      some (rc, { s with delivered := s.delivered ++ (reaches n strip r given s).toList }) := by
  obtain ⟨free, held, delivered⟩ := s
  obtain rfl : held = false := hheld
  cases free with
  | nil =>
    refine ⟨-enomem, ?_⟩
    rw [reaches, if_neg (fun h => h.1 rfl), Option.toList_none, List.append_nil]
    rfl
  | cons pkt free =>
    cases harrived : r.arrived with
    | false =>
      refine ⟨r.rc, ?_⟩
      simp [processPackets, reaches, harrived, Thread.lock, Thread.unlock]
    | true =>
      cases hinput : r.input strip with
      | none =>
        refine ⟨r.rc, ?_⟩
        simp [processPackets, reaches, harrived, hinput, Thread.lock, Thread.unlock]
      | some input =>
        cases htarget : target n given r input with
        | none =>
          refine ⟨einval, ?_⟩
          simp [processPackets, reaches, deliver, harrived, hinput, htarget, Thread.lock,
            Thread.unlock]
        | some i =>
          refine ⟨r.rc, ?_⟩
          simp [processPackets, reaches, deliver, harrived, hinput, htarget, Thread.lock,
            Thread.unlock]

def Own (n : Nic) (r : Frame) (d : Nat × Input) : Prop :=
  (n.iface d.1).vlanId = r.vlanId ∧ n.protocol d.1 = d.2.afType

/-- A frame reaches only the stack it is for, the packet is back in the free queue and
`nic_mutex` is released. -/
def Isolated (n : Nic) (strip : Bool) (r : Frame) (given : Option Nat) (s : Thread) : Prop :=
  ∃ rc s', processPackets n strip r given s = some (rc, s') ∧ s'.free = s.free ∧ s'.held = false ∧
    ∃ new, s'.delivered = s.delivered ++ new ∧ ∀ d ∈ new, Own n r d

/-- An interface that is looked up is one for the frame. -/
theorem own_of_find {n : Nic} {fs : List (Nat × List Nat)} (h : Tree n fs) {r : Frame}
    {input : Input} {i : Nat} (hfind : target n none r input = some i) : Own n r (i, input) := by
  have hvlan : r.vlanId ≠ noVlan := by
    have hlt : r.vlanId < 0x1000 := Nat.mod_lt _ (by decide)
    have hno : noVlan = 0x8000 := rfl
    omega
  have hfound : nicFindNicIface n ⟨input.afType, r.vlanId, ifaceNumInvalid, ipConfigOff⟩ = some i :=
    hfind
  have hright : FindsRight n ⟨input.afType, r.vlanId, ifaceNumInvalid, ipConfigOff⟩ fs :=
    findsRight_by_vlan h hvlan rfl
  rw [FindsRight, hfound] at hright
  have hmatch := (matches_vlan rfl _).mp hright.2
  exact ⟨((byVlan_iff _ _).mp hmatch.2).1, hmatch.1⟩

theorem isolated_iff_reaches (n : Nic) (strip : Bool) (r : Frame) (given : Option Nat) {s : Thread}
    (hheld : s.held = false) :
    Isolated n strip r given s ↔ ∀ d, reaches n strip r given s = some d → Own n r d := by
  obtain ⟨rc, hprocess⟩ := processPackets_eq n strip r given hheld
  constructor
  · rintro ⟨rc', s', hsome, -, -, new, hnew, hown⟩ d hd
    rw [hprocess] at hsome
    obtain ⟨-, rfl⟩ := Prod.mk.inj (Option.some.inj hsome)
    refine hown d ?_
    rw [← List.append_cancel_left hnew, hd]
    exact List.mem_singleton_self d
  · intro hown
    refine ⟨rc, _, hprocess, rfl, hheld, _, rfl, ?_⟩
    intro d hd
    exact hown d (Option.mem_toList.mp hd)

/-- A frame reaches only its own VLAN and family exactly if an interface that is given and
has the VLAN of the frame also has its family. -/
theorem receive_isolated_iff {n : Nic} {fs : List (Nat × List Nat)} (h : Tree n fs) (strip : Bool)
    (r : Frame) (given : Option Nat) (s : Thread) (hheld : s.held = false) :
    Isolated n strip r given s ↔
      (s.free ≠ [] → r.arrived = true → ∀ i input, given = some i → r.input strip = some input →
        (n.iface i).vlanId = r.vlanId → n.protocol i = input.afType) := by
  rw [isolated_iff_reaches n strip r given hheld]
  constructor
  · intro hown hfree harrived i input hgiven hinput hvlan
    have hreaches : reaches n strip r given s = some (i, input) := by
      rw [reaches, if_pos ⟨hfree, harrived⟩, hinput, hgiven]
      simp [target, hvlan]
    exact (hown _ hreaches).2
  · intro hfamily d hd
    unfold reaches at hd
    split at hd
    · rename_i hframe
      cases hinput : r.input strip with
      | none =>
        rw [hinput] at hd
        cases hd
      | some input =>
        rw [hinput, Option.bind_some, Option.map_eq_some_iff] at hd
        obtain ⟨i, htarget, rfl⟩ := hd
        cases given with
        | none => exact own_of_find h htarget
        | some j =>
          unfold target at htarget
          dsimp only at htarget
          split at htarget
          · cases htarget
          · rename_i hvlan
            obtain rfl : j = i := Option.some.inj htarget
            have hsame : (n.iface j).vlanId = r.vlanId := (not_not.mp hvlan).symm
            exact ⟨hsame, hfamily hframe.1 hframe.2 j input rfl hinput hsame⟩
    · cases hd

def ipv6Frame : Frame := ⟨1, 60, 0, List.replicate 12 0 ++ [0x86, 0xdd]⟩

/-- In the main loop the frame finds no interface of its family and is dropped. -/
theorem receive_isolated_main_loop :
    ∃ fs, Tree twoIfaces fs ∧ Isolated twoIfaces true ipv6Frame none ⟨[0], false, []⟩ := by
  obtain ⟨fs, htree, -⟩ := twoIfaces_kept
  refine ⟨fs, htree, (receive_isolated_iff htree true ipv6Frame none ⟨[0], false, []⟩ rfl).mpr ?_⟩
  intro _ _ i input hgiven
  cases hgiven

/-- An IPv4 interface that acquires its address is given an IPv6 frame. -/
theorem receive_other_family :
    twoIfaces.protocol 0 = afInet ∧
      ((processPackets twoIfaces true ipv6Frame (some 0) ⟨[0], false, []⟩).map
        (fun r => r.2.delivered)) = some [(0, .ipv6)] ∧
      ¬ Isolated twoIfaces true ipv6Frame (some 0) ⟨[0], false, []⟩ := by
  refine ⟨by decide, by decide, ?_⟩
  intro hisolated
  rw [isolated_iff_reaches twoIfaces true ipv6Frame (some 0) rfl] at hisolated
  have hown := hisolated (0, .ipv6) (by decide)
  exact absurd hown.2 (by decide)

end NicReceive
