import OpenIscsi.Lib.LinkedList
import OpenIscsi.Lib.Runs

/-!
# The IPv6 addresses of an interface

The entries of the prefix table are linked to a list. An entry is free while its prefix length,
which is kept in bytes, is zero.
-/

namespace Ipv6Addresses

open LinkedList Runs List

/-- An address, its first byte on top. -/
abbrev Addr := BitVec 128

/-- The number of entries of the table is `IPV6_NUM_OF_ADDRESS_ENTRY`. -/
abbrev Slot := Fin 4

structure PrefixEntry where
  ipAddr : Addr
  prefixLen : Nat
  next : Option Slot

/-- `added` has the addresses for which `ipv6_add_prefix_entry` returned 0. -/
structure Context where
  prefixTable : Slot → PrefixEntry
  addrList : Option Slot
  linkLocalAddr : Addr
  added : List Addr

def ipv6AddPrefixEntry (c : Context) (ipAddr : Addr) (prefixLen : Nat) : Context :=
  if ∃ i, (c.prefixTable i).prefixLen ≠ 0 ∧ (c.prefixTable i).ipAddr = ipAddr then
    { c with added := ipAddr :: c.added }
  else match (List.finRange 4).find? fun i => (c.prefixTable i).prefixLen = 0 with
    | none => c
    | some i => { c with
        prefixTable := Function.update c.prefixTable i ⟨ipAddr, prefixLen / 8, c.addrList⟩
        addrList := some i
        added := ipAddr :: c.added }

/-- The address with an interface identifier made from the MAC address. -/
def linkLocal (mac : BitVec 48) : Addr :=
  0xfe80#16 ++ 0#48 ++ (mac.extractLsb' 24 24 ||| 0x020000#24) ++ 0xfffe#16 ++ mac.extractLsb' 0 24

def ipv6Init (mac : BitVec 48) (autocfg : Bool) : Context :=
  let c : Context := ⟨fun _ => ⟨0, 0, none⟩, none, 0, []⟩
  if autocfg then
    ipv6AddPrefixEntry { c with linkLocalAddr := linkLocal mac } (linkLocal mac) 64
  else c

def ipv6SetIpParams (c : Context) (src : Addr) (prefixLen : Nat) (gateway linklocal : Addr) :
    Context :=
  let c := if src = 0 then c else ipv6AddPrefixEntry c src prefixLen
  let c := if gateway = 0 then c else ipv6AddPrefixEntry c gateway prefixLen
  if linklocal = 0 then c
  else ipv6AddPrefixEntry { c with linkLocalAddr := linklocal } linklocal 64

/-- The address has the prefix of the option and the identifier of the link-local address. -/
def ipv6IcmpProcessPrefix (c : Context) (onLink : Bool) (prefixLen : Nat) (bits : BitVec 64) :
    Context :=
  if !onLink then c
  else if prefixLen = 64 then
    ipv6AddPrefixEntry c (bits ++ c.linkLocalAddr.extractLsb' 0 64) 64
  else c

inductive Event where
  | setIpParams (src : Addr) (prefixLen : Nat) (gateway linklocal : Addr)
  | routerPrefix (onLink : Bool) (prefixLen : Nat) (bits : BitVec 64)
  | dhcpv6 (addr : Addr)

def step (c : Context) : Event → Context
  | .setIpParams src prefixLen gateway linklocal => ipv6SetIpParams c src prefixLen gateway linklocal
  | .routerPrefix onLink prefixLen bits => ipv6IcmpProcessPrefix c onLink prefixLen bits
  | .dhcpv6 addr => ipv6AddPrefixEntry c addr 64

def nextOf (c : Context) (i : Slot) : Option Slot := (c.prefixTable i).next

def addrOf (c : Context) (i : Slot) : Addr := (c.prefixTable i).ipAddr

/-- The list ends, and has no entry and no address twice, and what was added is in it. -/
def IsList (c : Context) : Prop :=
  ∃ entries, Seg (nextOf c) c.addrList entries none ∧ entries.Nodup ∧
    (entries.map (addrOf c)).Nodup ∧ ∀ a ∈ c.added, a ∈ entries.map (addrOf c)

/-- An address is set with a prefix of at least a byte. -/
def Event.Whole : Event → Prop
  | .setIpParams src prefixLen gateway _ => 8 ≤ prefixLen ∨ (src = 0 ∧ gateway = 0)
  | _ => True

/-- The entries of the list are those in use. -/
structure Linked (c : Context) (entries : List Slot) : Prop where
  seg : Seg (nextOf c) c.addrList entries none
  used : ∀ i, i ∈ entries ↔ (c.prefixTable i).prefixLen ≠ 0
  addrs : (entries.map (addrOf c)).Nodup
  added : ∀ a ∈ c.added, a ∈ entries.map (addrOf c)

theorem Linked.push {c : Context} {entries : List Slot} (h : Linked c entries) {i : Slot}
    (hfree : (c.prefixTable i).prefixLen = 0) {a : Addr} (hnew : a ∉ entries.map (addrOf c))
    {len : Nat} (hlen : len ≠ 0) :
    Linked { c with
      prefixTable := Function.update c.prefixTable i ⟨a, len, c.addrList⟩
      addrList := some i
      added := a :: c.added } (i :: entries) := by
  have hi : i ∉ entries := fun hmem => (h.used i).1 hmem hfree
  have hother : ∀ j ∈ entries, Function.update c.prefixTable i ⟨a, len, c.addrList⟩ j =
      c.prefixTable j := by
    intro j hj
    refine Function.update_of_ne ?_ _ _
    rintro rfl
    exact hi hj
  have haddrs : (i :: entries).map (fun j =>
      (Function.update c.prefixTable i ⟨a, len, c.addrList⟩ j).ipAddr) =
        a :: entries.map (addrOf c) := by
    rw [map_cons, Function.update_self]
    exact congrArg (a :: ·) (map_congr_left fun j hj => by rw [hother j hj, addrOf])
  constructor
  · refine ⟨rfl, ?_⟩
    simp only [nextOf, Function.update_self]
    exact h.seg.congr fun j hj => congrArg PrefixEntry.next (hother j hj)
  · intro j
    by_cases hj : j = i
    · subst hj
      simp [hlen]
    · simp [hj, h.used j]
  · exact haddrs ▸ nodup_cons.2 ⟨hnew, h.addrs⟩
  · refine fun b hb => haddrs ▸ ?_
    rcases mem_cons.1 hb with rfl | hb
    · exact mem_cons_self
    · exact mem_cons_of_mem _ (h.added b hb)

/-- One call keeps the list, if the length that it stores is not zero. -/
theorem linked_add {c : Context} (h : ∃ entries, Linked c entries) (a : Addr) {prefixLen : Nat}
    (hlen : 8 ≤ prefixLen) : ∃ entries, Linked (ipv6AddPrefixEntry c a prefixLen) entries := by
  obtain ⟨entries, h⟩ := h
  unfold ipv6AddPrefixEntry
  split
  · rename_i hexists
    obtain ⟨i, hused, rfl⟩ := hexists
    refine ⟨entries, h.seg, h.used, h.addrs, fun b hb => ?_⟩
    rcases mem_cons.1 hb with rfl | hb
    · exact mem_map_of_mem ((h.used i).2 hused)
    · exact h.added b hb
  · rename_i hnone
    split
    · exact ⟨entries, h⟩
    · rename_i i hfind
      have hfree := find?_some hfind
      refine ⟨i :: entries, h.push (of_decide_eq_true hfree) (fun hmem => ?_) (by omega)⟩
      obtain ⟨j, hj, haddr⟩ := mem_map.1 hmem
      exact hnone ⟨j, (h.used j).1 hj, haddr⟩

theorem linked_init (mac : BitVec 48) (autocfg : Bool) :
    ∃ entries, Linked (ipv6Init mac autocfg) entries := by
  have hempty : ∀ a, ∃ entries, Linked ⟨fun _ => ⟨0, 0, none⟩, none, a, []⟩ entries := fun a =>
    ⟨[], rfl, fun i => by simp, nodup_nil, fun b hb => absurd hb not_mem_nil⟩
  cases autocfg with
  | false => exact hempty 0
  | true => exact linked_add (hempty _) _ (by decide)

theorem linked_step {c : Context} (h : ∃ entries, Linked c entries) {e : Event} (he : e.Whole) :
    ∃ entries, Linked (step c e) entries := by
  cases e with
  | setIpParams src prefixLen gateway linklocal =>
    have hset : ∀ {c : Context} (a : Addr), (∃ entries, Linked c entries) →
        (a = 0 ∨ 8 ≤ prefixLen) →
        ∃ entries, Linked (if a = 0 then c else ipv6AddPrefixEntry c a prefixLen) entries := by
      intro c a h hlen
      split
      · exact h
      · rename_i ha
        exact linked_add h a (hlen.resolve_left ha)
    have hgateway := hset gateway (hset src h (he.elim .inr fun hzero => .inl hzero.1))
      (he.elim .inr fun hzero => .inl hzero.2)
    rw [step, ipv6SetIpParams]
    split
    · exact hgateway
    · obtain ⟨entries, h⟩ := hgateway
      apply linked_add _ _ (by decide)
      exact ⟨entries, h.seg, h.used, h.addrs, h.added⟩
  | routerPrefix onLink prefixLen bits =>
    rw [step, ipv6IcmpProcessPrefix]
    split
    · exact h
    · split
      · exact linked_add h _ (by decide)
      · exact h
  | dhcpv6 addr => exact linked_add h addr (by decide)

/-- The list stays a list while every address is set with a prefix of at least a byte. -/
theorem addr_list_isList (mac : BitVec 48) (autocfg : Bool) (es : List Event)
    (hes : Guarded step (fun _ e => e.Whole) (ipv6Init mac autocfg) es) :
    IsList (run step (ipv6Init mac autocfg) es) := by
  obtain ⟨entries, h⟩ := hes.run_invariant (I := fun c => ∃ entries, Linked c entries)
    (fun c e h he => linked_step h he) (linked_init mac autocfg)
  exact ⟨entries, h.seg, h.addrs.of_map _, h.addrs, h.added⟩

theorem addr_list_static : IsList (run step (ipv6Init 0 true) [.setIpParams 1 64 2 0]) :=
  addr_list_isList 0 true _ ⟨.inl (by decide), trivial⟩

/-- Two addresses set with a prefix of length 0 share an entry, which is then linked to itself. -/
theorem addr_list_cycle :
    ¬ IsList (run step (ipv6Init 0 true) [.setIpParams 1 0 2 0]) := by
  generalize hc : run step (ipv6Init 0 true) [.setIpParams 1 0 2 0] = c
  have hhead : c.addrList = some 1 ∧ nextOf c 1 = some 1 := by
    rw [← hc]
    decide +kernel
  rintro ⟨entries, hseg, hnodup, -⟩
  rw [hhead.1] at hseg
  cases entries with
  | nil => cases hseg
  | cons i entries =>
    obtain rfl := Option.some.inj hseg.1
    have hrest := hseg.2
    rw [hhead.2] at hrest
    cases entries with
    | nil => cases hrest
    | cons j entries =>
      obtain rfl := Option.some.inj hrest.1
      exact (nodup_cons.1 hnodup).1 mem_cons_self

end Ipv6Addresses
