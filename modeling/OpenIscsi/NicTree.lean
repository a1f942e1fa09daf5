import OpenIscsi.Lib.LinkedList
import OpenIscsi.Lib.Runs

/-!
# The interfaces of a NIC

`nic_find_nic_iface` and `set_nic_iface` of `nic_utils.c`, `nic_add_nic_iface` and the part of
`nic_loop` that acquires addresses, of `nic.c`. An interface is its number in the order
of allocation. The top-level interfaces are linked by `next`, the others of a protocol
by `vlan_next` behind their top-level interface.
-/

namespace NicTree

open LinkedList Runs List

/-- `nic_interface_t` -/
structure Iface where
  protocol : Nat
  vlanId : Nat
  ifaceNum : Int
  requestType : Int
  /-- `NIC_IFACE_ACQUIRE` -/
  acquire : Bool
  next : Option Nat
  vlanNext : Option Nat

structure Nic where
  nicIface : Option Nat
  iface : Nat → Iface
  allocated : Nat
  linked : List Nat

def Nic.next (n : Nic) (i : Nat) : Option Nat := (n.iface i).next

def Nic.vlanNext (n : Nic) (i : Nat) : Option Nat := (n.iface i).vlanNext

def Nic.protocol (n : Nic) (i : Nat) : Nat := (n.iface i).protocol

def Nic.tops (n : Nic) : List Nat := follow n.next n.allocated n.nicIface

/-- The turns of a loop over `vlan_next` behind an interface. -/
def Nic.vlans (n : Nic) (i : Nat) : List Nat := follow n.vlanNext n.allocated (n.vlanNext i)

/-- All interfaces in the order of the two loops. -/
def Nic.reached (n : Nic) : List Nat := n.tops.flatMap (fun i => i :: n.vlans i)

/-! ## Lookup -/

def noVlan : Nat := 0x8000

def ifaceNumInvalid : Int := -1

def ipConfigOff : Int := 0

/-- The arguments of `nic_find_nic_iface`. -/
structure Query where
  protocol : Nat
  vlanId : Nat
  ifaceNum : Int
  requestType : Int

/-- The number, and for number zero the request type. -/
def Query.byNum (q : Query) (x : Iface) : Bool :=
  x.ifaceNum == q.ifaceNum &&
    (!(q.ifaceNum == 0 && q.requestType != ipConfigOff) || x.requestType == q.requestType)

def Query.byVlan (q : Query) (x : Iface) : Bool :=
  x.vlanId == q.vlanId && (q.requestType == ipConfigOff || x.requestType == q.requestType)

/-- The test of a top-level interface. -/
def Query.top (q : Query) (x : Iface) : Bool :=
  if q.ifaceNum ≠ ifaceNumInvalid then q.byNum x
  else if q.vlanId = noVlan then true
  else q.byVlan x

/-- The test of an interface in a `vlan_next` chain: the VLAN is looked at even where a number
is given. -/
def Query.behind (q : Query) (x : Iface) : Bool :=
  q.ifaceNum ≠ ifaceNumInvalid && q.byNum x || q.byVlan x

/-- One turn of the outer loop. -/
def Nic.findIn (n : Nic) (q : Query) (i : Nat) : Option Nat :=
  if n.protocol i ≠ q.protocol then none
  else if q.top (n.iface i) then some i
  else (n.vlans i).find? (fun j => q.behind (n.iface j))

def nicFindNicIface (n : Nic) (q : Query) : Option Nat := n.tops.findSome? (n.findIn q)

/-! ## Changes -/

/-- Store into an interface. -/
def Nic.modify (n : Nic) (i : Nat) (f : Iface → Iface) : Nic :=
  { n with iface := fun j => if j = i then f (n.iface j) else n.iface j }

def Nic.setTop (n : Nic) (prev : Option Nat) (i : Nat) : Nic :=
  match prev with
  | some p => n.modify p (fun x => { x with next := some i })
  | none => { n with nicIface := some i }

/-- The arguments of the lookup for an interface that is to be added. -/
def Iface.query (x : Iface) : Query := ⟨x.protocol, x.vlanId, x.ifaceNum, x.requestType⟩

def Nic.link (n : Nic) (i : Nat) : Nic :=
  match locate (fun c => n.protocol c == n.protocol i) none n.tops with
  | some (prev, current) =>
    let n := n.modify i (fun x => { x with vlanNext := some current, next := n.next current })
    let n := n.modify current (fun x => { x with next := none })
    n.setTop prev i
  | none =>
    let n := n.modify i (fun x => { x with next := n.nicIface })
    { n with nicIface := some i }

def nicAddNicIface (n : Nic) (i : Nat) : Nic :=
  if (nicFindNicIface n (n.iface i).query).isSome then n
  else { n.link i with linked := n.linked ++ [i] }

/-- The turn of `set_nic_iface` that finds the interface behind `current`. -/
def Nic.moveUp (n : Nic) (prev : Option Nat) (current prevVlan i : Nat) : Nic :=
  let n := n.modify prevVlan (fun x => { x with vlanNext := n.vlanNext i })
  let n := n.modify i (fun x => { x with vlanNext := some current })
  n.setTop prev i

/-- The outer loop of `set_nic_iface`. -/
def Nic.setFrom (n : Nic) (i : Nat) : Option Nat → List Nat → Nic
  | _, [] => n
  | prev, current :: tops =>
    if n.protocol current ≠ n.protocol i then n.setFrom i (some current) tops
    else if current = i then n
    else match locate (· == i) (some current) (n.vlans current) with
      | some (prevVlan, _) => n.moveUp prev current (prevVlan.getD current) i
      | none => n.setFrom i (some current) tops

def setNicIface (n : Nic) (i : Nat) : Nic := n.setFrom i none n.tops

/-! ## Runs -/

/-- A NIC without interfaces. -/
def Nic.empty : Nic := ⟨none, fun _ => ⟨0, 0, ifaceNumInvalid, ipConfigOff, false, none, none⟩, 0, []⟩

/-- What the callers do with the interfaces of a NIC. -/
inductive Call
  /-- `nic_iface_init` and the fields that are set behind it -/
  | init (protocol vlanId : Nat) (ifaceNum requestType : Int)
  | add (i : Nat)
  | set (i : Nat)
  /-- The flag `NIC_IFACE_ACQUIRE` is set or cleared. -/
  | flag (i : Nat) (acquire : Bool)

def step (n : Nic) : Call → Nic
  | .init protocol vlanId ifaceNum requestType =>
    { n.modify n.allocated (fun _ => ⟨protocol, vlanId, ifaceNum, requestType, false, none, none⟩)
        with allocated := n.allocated + 1 }
  | .add i => if i < n.allocated then nicAddNicIface n i else n
  | .set i => if i < n.allocated then setNicIface n i else n
  | .flag i acquire => n.modify i (fun x => { x with acquire := acquire })

/-- The interfaces for which `nic_loop` calls `do_acquisition`: the loop over a chain goes on
with `next`. -/
def acquired (n : Nic) : List Nat :=
  n.tops.flatMap (fun i =>
    (i :: follow n.next n.allocated (n.vlanNext i)).filter (fun j => (n.iface j).acquire))

/-! ## Stores -/

section Stores

variable (n : Nic) (prev : Option Nat) (i j : Nat)

@[simp] theorem modify_next (f : Iface → Iface) :
    (n.modify i f).next j = if j = i then (f (n.iface j)).next else n.next j := by
  unfold Nic.next Nic.modify
  dsimp only
  split <;> rfl

@[simp] theorem modify_vlanNext (f : Iface → Iface) :
    (n.modify i f).vlanNext j = if j = i then (f (n.iface j)).vlanNext else n.vlanNext j := by
  unfold Nic.vlanNext Nic.modify
  dsimp only
  split <;> rfl

/-- A store keeps the fields that it does not write. -/
theorem modify_keeps {α : Type} (g : Iface → α) {f : Iface → Iface} (hf : ∀ x, g (f x) = g x) :
    g ((n.modify i f).iface j) = g (n.iface j) := by
  unfold Nic.modify
  dsimp only
  split
  · exact hf _
  · rfl

theorem modify_protocol {f : Iface → Iface}
    (hf : ∀ x, (f x).protocol = x.protocol) : (n.modify i f).protocol j = n.protocol j :=
  modify_keeps n i j Iface.protocol hf

@[simp] theorem setTop_next :
    (n.setTop prev i).next j = if prev = some j then some i else n.next j := by
  cases prev with
  | none => rfl
  | some p =>
    rw [Nic.setTop, modify_next]
    by_cases hj : j = p
    · rw [if_pos hj, if_pos (hj ▸ rfl)]
    · rw [if_neg hj, if_neg (fun h => hj (Option.some.inj h).symm)]

@[simp] theorem setTop_vlanNext :
    (n.setTop prev i).vlanNext j = n.vlanNext j := by
  cases prev with
  | none => rfl
  | some p =>
    rw [Nic.setTop, modify_vlanNext]
    split <;> rfl

@[simp] theorem setTop_protocol :
    (n.setTop prev i).protocol j = n.protocol j := by
  cases prev with
  | none => rfl
  | some p =>
    rw [Nic.setTop]
    exact modify_protocol n p j (fun _ => rfl)

@[simp] theorem setTop_allocated :
    (n.setTop prev i).allocated = n.allocated := by
  cases prev <;> rfl

theorem setTop_nicIface :
    (n.setTop prev i).nicIface = if prev = none then some i else n.nicIface := by
  cases prev <;> rfl

end Stores

/-! ## Well-formed trees -/

/-- All interfaces of these families, each given by its top-level interface and the chain
behind it. -/
def members (fs : List (Nat × List Nat)) : List Nat := fs.flatMap (fun f => f.1 :: f.2)

/-- The links of the NIC are those of these families: one for each protocol, no interface
twice, and no link between the levels. -/
structure Tree (n : Nic) (fs : List (Nat × List Nat)) : Prop where
  tops : Seg n.next n.nicIface (fs.map Prod.fst) none
  chains : ∀ f ∈ fs, Seg n.vlanNext (n.vlanNext f.1) f.2 none
  nodup : (members fs).Nodup
  bound : ∀ i ∈ members fs, i < n.allocated
  family : ∀ f ∈ fs, ∀ j ∈ f.2, n.protocol j = n.protocol f.1
  one : (fs.map (fun f => n.protocol f.1)).Nodup
  inner : ∀ f ∈ fs, ∀ j ∈ f.2, n.next j = none
  spare : ∀ i, i ∉ members fs → n.next i = none ∧ n.vlanNext i = none

variable {n : Nic} {fs : List (Nat × List Nat)} {m : Nic} {f : Nat × List Nat} {front : List Nat}

theorem mem_members {i : Nat} :
    i ∈ members fs ↔ ∃ f ∈ fs, i = f.1 ∨ i ∈ f.2 := by
  simp only [members, mem_flatMap, mem_cons]

theorem fst_mem_members (hf : f ∈ fs) :
    f.1 ∈ members fs :=
  mem_members.mpr ⟨f, hf, .inl rfl⟩

theorem snd_mem_members (hf : f ∈ fs) {j : Nat}
    (hj : j ∈ f.2) : j ∈ members fs :=
  mem_members.mpr ⟨f, hf, .inr hj⟩

theorem members_append (fs gs : List (Nat × List Nat)) :
    members (fs ++ gs) = members fs ++ members gs :=
  flatMap_append

theorem members_cons (f : Nat × List Nat) (fs : List (Nat × List Nat)) :
    members (f :: fs) = f.1 :: f.2 ++ members fs :=
  flatMap_cons

theorem sublist_members (fs : List (Nat × List Nat)) : (fs.map Prod.fst).Sublist (members fs) := by
  induction fs with
  | nil => exact List.Sublist.refl _
  | cons f fs ih =>
    rw [map_cons, members_cons, cons_append]
    exact (ih.trans (sublist_append_right f.2 (members fs))).cons_cons f.1

theorem length_le_of_bound {l : List Nat} {k : Nat} (hnodup : l.Nodup) (h : ∀ i ∈ l, i < k) :
    l.length ≤ k := by
  have hsub : l.toFinset ⊆ Finset.range k := by
    intro i hi
    exact Finset.mem_range.mpr (h i (mem_toFinset.mp hi))
  have hcard := Finset.card_le_card hsub
  rwa [toFinset_card_of_nodup hnodup, Finset.card_range] at hcard

theorem Tree.length_le (h : Tree n fs) :
    (members fs).length ≤ n.allocated :=
  length_le_of_bound h.nodup h.bound

theorem Tree.tops_eq (h : Tree n fs) :
    n.tops = fs.map Prod.fst :=
  h.tops.follow_eq ((sublist_members fs).length_le.trans h.length_le)

theorem Tree.vlans_eq (h : Tree n fs) (hf : f ∈ fs) : n.vlans f.1 = f.2 := by
  refine (h.chains f hf).follow_eq (Nat.le_trans ?_ h.length_le)
  obtain ⟨front, back, rfl⟩ := append_of_mem hf
  rw [members_append, members_cons, length_append, length_append, length_cons]
  omega

theorem Tree.reached_eq (h : Tree n fs) :
    n.reached = members fs := by
  unfold Nic.reached members
  rw [h.tops_eq, flatMap_map]
  refine flatMap_congr ?_
  intro f hf
  rw [h.vlans_eq hf]

/-- A change that leaves the links and protocols alone. -/
theorem Tree.congr (h : Tree n fs) (hroot : m.nicIface = n.nicIface)
    (hnext : ∀ i, m.next i = n.next i) (hvlan : ∀ i, m.vlanNext i = n.vlanNext i)
    (hprotocol : ∀ i ∈ members fs, m.protocol i =
      n.protocol i) (halloc : n.allocated ≤ m.allocated) :
    Tree m fs where
  tops := by
    rw [hroot]
    exact h.tops.congr (fun i _ => hnext i)
  chains f hf := by
    rw [hvlan]
    exact (h.chains f hf).congr (fun i _ => hvlan i)
  nodup := h.nodup
  bound i hi := Nat.lt_of_lt_of_le (h.bound i hi) halloc
  family f hf j hj := by
    rw [hprotocol j (snd_mem_members hf hj), hprotocol f.1 (fst_mem_members hf)]
    exact h.family f hf j hj
  one := by
    have hsame : fs.map (fun f => m.protocol f.1) = fs.map (fun f => n.protocol f.1) :=
      map_congr_left (fun f hf => hprotocol f.1 (fst_mem_members hf))
    rw [hsame]
    exact h.one
  inner f hf j hj := by
    rw [hnext]
    exact h.inner f hf j hj
  spare i hi := by
    rw [hnext, hvlan]
    exact h.spare i hi

/-! ## Adding an interface -/

theorem Tree.empty : Tree Nic.empty [] where
  tops := rfl
  chains _ hf := absurd hf not_mem_nil
  nodup := nodup_nil
  bound _ hi := absurd hi not_mem_nil
  family _ hf := absurd hf not_mem_nil
  one := nodup_nil
  inner _ hf := absurd hf not_mem_nil
  spare _ _ := ⟨rfl, rfl⟩

theorem Tree.init (h : Tree n fs) (protocol vlanId : Nat)
    (ifaceNum requestType : Int) : Tree (step n (.init protocol vlanId ifaceNum requestType)) fs := by
  have hnew : n.allocated ∉ members fs := fun hmem => Nat.lt_irrefl _ (h.bound _ hmem)
  let new : Iface → Iface := fun _ => ⟨protocol, vlanId, ifaceNum, requestType, false, none, none⟩
  refine h.congr rfl ?_ ?_ ?_ (Nat.le_succ n.allocated)
  · intro i
    refine (modify_next n n.allocated i new).trans ?_
    by_cases hi : i = n.allocated
    · rw [if_pos hi, hi]
      exact (h.spare _ hnew).1.symm
    · rw [if_neg hi]
  · intro i
    refine (modify_vlanNext n n.allocated i new).trans ?_
    by_cases hi : i = n.allocated
    · rw [if_pos hi, hi]
      exact (h.spare _ hnew).2.symm
    · rw [if_neg hi]
  · intro i hi
    have hne : i ≠ n.allocated := fun heq => hnew (heq ▸ hi)
    exact congrArg Iface.protocol (if_neg hne)

theorem Tree.flag (h : Tree n fs) (i : Nat)
    (acquire : Bool) : Tree (step n (.flag i acquire)) fs := by
  let mark : Iface → Iface := fun x => { x with acquire := acquire }
  refine h.congr rfl ?_ ?_ ?_ (Nat.le_refl _)
  · exact fun j => modify_keeps n i j Iface.next (f := mark) (fun _ => rfl)
  · exact fun j => modify_keeps n i j Iface.vlanNext (f := mark) (fun _ => rfl)
  · exact fun j _ => modify_keeps n i j Iface.protocol (f := mark) (fun _ => rfl)

/-- An interface that is linked is found under its own fields. -/
theorem Tree.find_self (h : Tree n fs) {i : Nat}
    (hi : i ∈ members fs) : (nicFindNicIface n (n.iface i).query).isSome = true := by
  obtain ⟨f, hf, hmem⟩ := mem_members.mp hi
  have htop : f.1 ∈ n.tops := by
    rw [h.tops_eq]
    exact mem_map_of_mem hf
  have hvlan : (n.iface i).query.byVlan (n.iface i) = true := by
    simp [Query.byVlan, Iface.query]
  have hnum : (n.iface i).query.byNum (n.iface i) = true := by
    simp [Query.byNum, Iface.query]
  rw [nicFindNicIface, findSome?_isSome_iff]
  refine ⟨f.1, htop, ?_⟩
  have hprotocol : n.protocol f.1 = (n.iface i).query.protocol := by
    rcases hmem with rfl | hmem
    · rfl
    · exact (h.family f hf i hmem).symm
  rw [Nic.findIn, if_neg (fun hne => hne hprotocol)]
  split
  · rfl
  · rename_i hnottop
    rcases hmem with rfl | hmem
    · refine absurd ?_ hnottop
      unfold Query.top
      rw [hnum, hvlan]
      simp
    · rw [h.vlans_eq hf, find?_isSome]
      refine ⟨i, hmem, ?_⟩
      rw [Query.behind, hvlan, Bool.or_true]

/-- A new family in front. -/
theorem Tree.newFamily (h : Tree n fs) {i : Nat} (hi : i ∉ members fs) (hbound : i < n.allocated)
    (hother : ∀ f ∈ fs, n.protocol f.1 ≠ n.protocol i) (hroot : m.nicIface = some i)
    (hnext : ∀ j, m.next j = if j = i then n.nicIface else n.next j)
    (hvlan : ∀ j, m.vlanNext j = n.vlanNext j) (hprotocol : ∀ j, m.protocol j = n.protocol j)
    (halloc : m.allocated = n.allocated) : Tree m ((i, []) :: fs) where
  tops := by
    refine ⟨hroot, ?_⟩
    rw [hnext, if_pos rfl]
    refine h.tops.congr ?_
    intro j hj
    rw [hnext, if_neg (ne_of_mem_of_not_mem ((sublist_members fs).subset hj) hi)]
  chains := by
    refine forall_mem_cons.mpr ⟨(hvlan i).trans (h.spare i hi).2, ?_⟩
    intro f hf
    rw [hvlan]
    exact (h.chains f hf).congr (fun j _ => hvlan j)
  nodup := by
    rw [members_cons]
    exact nodup_cons.mpr ⟨hi, h.nodup⟩
  bound := by
    rw [members_cons, halloc]
    exact forall_mem_cons.mpr ⟨hbound, h.bound⟩
  family := by
    refine forall_mem_cons.mpr ⟨fun j hj => absurd hj not_mem_nil, ?_⟩
    intro f hf j hj
    rw [hprotocol, hprotocol]
    exact h.family f hf j hj
  one := by
    simp only [hprotocol]
    rw [map_cons]
    refine nodup_cons.mpr ⟨?_, h.one⟩
    intro hmem
    obtain ⟨f, hf, heq⟩ := mem_map.mp hmem
    exact hother f hf heq
  inner := by
    refine forall_mem_cons.mpr ⟨fun j hj => absurd hj not_mem_nil, ?_⟩
    intro f hf j hj
    rw [hnext, if_neg (ne_of_mem_of_not_mem (snd_mem_members hf hj) hi)]
    exact h.inner f hf j hj
  spare j hj := by
    rw [members_cons, cons_append, nil_append, mem_cons, not_or] at hj
    rw [hnext, if_neg hj.1, hvlan]
    exact h.spare j hj.2

/-- The pointer to a family in the middle goes to another interface. -/
theorem seg_retop {q : Option Nat} {i : Nat}
    (h : Seg n.next n.nicIface front q) (hnodup : front.Nodup)
    (hroot : m.nicIface = if front.getLast? = none then some i else n.nicIface)
    (hnext : ∀ j ∈ front, m.next j = if front.getLast? = some j then some i else n.next j) :
    Seg m.next m.nicIface front (some i) := by
  have hroot : m.nicIface = if front = [] then some i else n.nicIface := by
    simp only [hroot, getLast?_eq_none_iff]
  rw [hroot]
  exact (h.retarget hnodup (some i)).congr hnext

theorem same_family (hnodup : (members fs).Nodup) {e : Nat × List Nat} (he : e ∈ fs) (hf : f ∈ fs)
    {j : Nat} (hje : j ∈ e.1 :: e.2) (hjf : j ∈ f.1 :: f.2) : e = f := by
  by_contra hne
  have : Std.Symm (Function.onFun List.Disjoint fun f : Nat × List Nat => f.1 :: f.2) :=
    ⟨fun _ _ h => h.symm⟩
  exact (nodup_flatMap.mp hnodup).2.forall he hf hne hje hjf

/-- An interface in a chain is at no top. -/
theorem inner_not_top (hnodup : (members fs).Nodup)
    {e : Nat × List Nat} (he : e ∈ fs) {j : Nat} (hj : j ∈ e.2) : j ∉ fs.map Prod.fst := by
  intro htop
  obtain ⟨f, hf, rfl⟩ := mem_map.mp htop
  obtain rfl := same_family hnodup he hf (mem_cons_of_mem _ hj) mem_cons_self
  exact (nodup_cons.mp ((nodup_flatMap.mp hnodup).1 e he)).1 hj

section Replace

variable {front back : List (Nat × List Nat)}

theorem others_apart (hnodup : (members (front ++ f :: back)).Nodup) {j : Nat}
    (hj : j ∈ members front ++ members back) :
    j ∈ members (front ++ f :: back) ∧ j ∉ f.1 :: f.2 := by
  rw [members_append, members_cons] at hnodup ⊢
  obtain ⟨-, hrest, hfront⟩ := nodup_append.mp hnodup
  rcases mem_append.mp hj with hj | hj
  · exact ⟨mem_append_left _ hj, fun h => hfront j hj j (mem_append_left _ h) rfl⟩
  · exact ⟨mem_append_right _ (mem_append_right _ hj),
      fun h => (nodup_append.mp hrest).2.2 j h j hj rfl⟩

/-- The pointer to a family is in one of the families in front of it. -/
theorem last_ne (hnodup : (members (front ++ f :: back)).Nodup) {j : Nat}
    (hj : j ∈ f.1 :: f.2 ++ members back ∨ j ∉ members (front ++ f :: back)) :
    (front.map Prod.fst).getLast? ≠ some j := by
  intro hlast
  have hfront := (sublist_members front).subset (mem_of_getLast? hlast)
  rw [members_append, members_cons] at hnodup hj
  rcases hj with hj | hj
  · exact (nodup_append.mp hnodup).2.2 j hfront j hj rfl
  · exact hj (mem_append_left _ hfront)

/-- Another family takes the place of one, with the other families as they were but for
the pointer to it. -/
theorem Tree.replace {g : Nat × List Nat}
    (h : Tree n (front ++ f :: back)) (hnew : (members (front ++ g :: back)).Nodup)
    (hbound : ∀ i ∈ g.1 :: g.2, i < m.allocated) (halloc : m.allocated = n.allocated)
    (hroot : m.nicIface = if (front.map Prod.fst).getLast? = none then some g.1 else n.nicIface)
    (hnext : ∀ j ∈ members front ++ members back, m.next j = if (front.map Prod.fst).getLast? =
      some j then some g.1 else n.next j)
    (hvlan : ∀ j ∈ members front ++ members back, m.vlanNext j = n.vlanNext j)
    (hprotocol : ∀ j, m.protocol j = n.protocol j) (htop : m.next g.1 = n.next f.1)
    (hchain : Seg m.vlanNext (m.vlanNext g.1) g.2 none) (hinner : ∀ j ∈ g.2, m.next j = none)
    (hfamily : ∀ j ∈ g.1 :: g.2, n.protocol j = n.protocol f.1)
    (hspare : ∀ j, j ∉ members (front ++ g :: back) → m.next j = none ∧ m.vlanNext j = none) :
    Tree m (front ++ g :: back) := by
  have hothers : ∀ e ∈ front ++ back, e ∈ front ++ f :: back := fun _ he =>
    ((sublist_cons_self f back).append_left front).subset he
  have hin : ∀ e ∈ front ++ back, ∀ j ∈ e.1 :: e.2, j ∈ members front ++ members back := by
    intro e he j hj
    rw [← members_append]
    exact mem_members.mpr ⟨e, he, mem_cons.mp hj⟩
  have hsplit : ∀ {P : Nat × List Nat → Prop}, P g → (∀ e ∈ front ++ back, P e) →
      ∀ e ∈ front ++ g :: back, P e := by
    intro P hg hall
    rw [forall_mem_append] at hall ⊢
    exact ⟨hall.1, forall_mem_cons.mpr ⟨hg, hall.2⟩⟩
  constructor
  case tops =>
    have htops := h.tops
    rw [map_append, map_cons, seg_middle] at htops ⊢
    refine ⟨?_, ?_⟩
    · have hfront : (members front).Nodup := by
        rw [members_append] at hnew
        exact (nodup_append.mp hnew).1
      refine seg_retop htops.1 (hfront.sublist (sublist_members front)) hroot ?_
      intro j hj
      exact hnext j (mem_append_left _ ((sublist_members front).subset hj))
    · rw [htop]
      refine htops.2.congr ?_
      intro j hj
      have hback := (sublist_members back).subset hj
      rw [hnext j (mem_append_right _ hback),
        if_neg (last_ne h.nodup (.inl (mem_append_right _ hback)))]
  case chains =>
    refine hsplit hchain ?_
    intro e he
    rw [hvlan e.1 (hin e he e.1 mem_cons_self)]
    refine (h.chains e (hothers e he)).congr ?_
    intro j hj
    exact hvlan j (hin e he j (mem_cons_of_mem _ hj))
  case nodup => exact hnew
  case bound =>
    intro i hi
    obtain ⟨e, he, hmem⟩ := mem_members.mp hi
    revert hmem
    refine hsplit (P := fun e => i = e.1 ∨ i ∈ e.2 → i < m.allocated) ?_ ?_ e he
    · intro hmem
      exact hbound i (mem_cons.mpr hmem)
    · intro e he hmem
      rw [halloc]
      exact h.bound i (mem_members.mpr ⟨e, hothers e he, hmem⟩)
  case family =>
    refine hsplit ?_ ?_
    · intro j hj
      rw [hprotocol, hprotocol, hfamily j (mem_cons_of_mem _ hj), hfamily g.1 mem_cons_self]
    · intro e he j hj
      rw [hprotocol, hprotocol]
      exact h.family e (hothers e he) j hj
  case one =>
    have hone := h.one
    simp only [hprotocol]
    rw [map_append, map_cons] at hone ⊢
    rw [hfamily g.1 mem_cons_self]
    exact hone
  case inner =>
    refine hsplit hinner ?_
    intro e he j hj
    have hnone := h.inner e (hothers e he) j hj
    rw [hnext j (hin e he j (mem_cons_of_mem _ hj)), if_neg, hnone]
    refine fun hlast => inner_not_top h.nodup (hothers e he) hj ?_
    rw [map_append]
    exact mem_append_left _ (mem_of_getLast? hlast)
  case spare => exact hspare

/-- A new interface takes the place of the one at the top of its family. -/
theorem Tree.newTop {current : Nat} {chain : List Nat} (h : Tree n (front ++ (current, chain) :: back)) {i : Nat}
    (hi : i ∉ members (front ++ (current, chain) :: back)) (hbound : i < n.allocated)
    (hfamily : n.protocol current = n.protocol i)
    (hroot : m.nicIface = if (front.map Prod.fst).getLast? = none then some i else n.nicIface)
    (hnext : ∀ j, m.next j = if (front.map Prod.fst).getLast? = some j then some i
      else if j = current then none else if j = i then n.next current else n.next j)
    (hvlan : ∀ j, m.vlanNext j = if j = i then some current else n.vlanNext j)
    (hprotocol : ∀ j, m.protocol j = n.protocol j) (halloc : m.allocated = n.allocated) :
    Tree m (front ++ (i, current :: chain) :: back) := by
  have hcurrent : (current, chain) ∈ front ++ (current, chain) :: back :=
    mem_append_right _ mem_cons_self
  have hperm : (members (front ++ (i, current :: chain) :: back)).Perm
      (i :: members (front ++ (current, chain) :: back)) := by
    rw [members_append, members_cons, members_append, members_cons]
    exact perm_middle
  have hci : current ≠ i := ne_of_mem_of_not_mem (fst_mem_members hcurrent) hi
  have hlast : ∀ j ∈ current :: chain, (front.map Prod.fst).getLast? ≠ some j :=
    fun j hj => last_ne h.nodup (.inl (mem_append_left _ hj))
  refine h.replace ?_ ?_ halloc hroot ?_ ?_ hprotocol ?_ ?_ ?_ ?_ ?_
  · exact (hperm.nodup_iff).mpr (nodup_cons.mpr ⟨hi, h.nodup⟩)
  · intro j hj
    rw [halloc]
    rcases mem_cons.mp hj with rfl | hj
    · exact hbound
    · exact h.bound j (mem_members.mpr ⟨_, hcurrent, mem_cons.mp hj⟩)
  · intro j hj
    obtain ⟨hmember, hout⟩ := others_apart h.nodup hj
    rw [hnext, if_neg (ne_of_not_mem_cons hout), if_neg (ne_of_mem_of_not_mem hmember hi)]
  · intro j hj
    rw [hvlan, if_neg (ne_of_mem_of_not_mem (others_apart h.nodup hj).1 hi)]
  · rw [hnext, if_neg (last_ne h.nodup (.inr hi)), if_neg hci.symm, if_pos rfl]
  · refine ⟨by rw [hvlan, if_pos rfl], ?_⟩
    rw [hvlan, if_neg hci]
    refine (h.chains _ hcurrent).congr ?_
    intro j hj
    rw [hvlan, if_neg (ne_of_mem_of_not_mem (snd_mem_members hcurrent hj) hi)]
  · refine forall_mem_cons.mpr ⟨?_, ?_⟩
    · rw [hnext, if_neg (hlast current mem_cons_self), if_pos rfl]
    · intro j hj
      have hjmem := snd_mem_members hcurrent hj
      rw [hnext, if_neg (hlast j (mem_cons_of_mem _ hj)), if_neg (ne_of_mem_of_not_mem hjmem hi)]
      split
      · rfl
      · exact h.inner _ hcurrent j hj
  · refine forall_mem_cons.mpr ⟨hfamily.symm, forall_mem_cons.mpr ⟨rfl, ?_⟩⟩
    exact h.family _ hcurrent
  · intro j hj
    rw [hperm.mem_iff, mem_cons, not_or] at hj
    have hjc : j ≠ current := fun heq => hj.2 (heq ▸ fst_mem_members hcurrent)
    rw [hnext, hvlan, if_neg (last_ne h.nodup (.inr hj.2)), if_neg hjc, if_neg hj.1, if_neg hj.1]
    exact h.spare j hj.2

end Replace

theorem split_top {back : List Nat} {current : Nat}
    (h : fs.map Prod.fst = front ++ current :: back) :
    ∃ before chain after, fs = before ++ (current, chain) :: after ∧
      before.map Prod.fst = front := by
  obtain ⟨before, rest, rfl, hbefore, hrest⟩ := map_eq_append_iff.mp h
  obtain ⟨f, after, rfl, rfl, -⟩ := map_eq_cons_iff.mp hrest
  exact ⟨before, f.2, after, rfl, hbefore⟩

/-- The links of a new interface keep the tree, with one interface more. -/
theorem Tree.link (h : Tree n fs) {i : Nat}
    (hi : i ∉ members fs) (hbound : i < n.allocated) :
    ∃ gs, Tree (n.link i) gs ∧ (members gs).Perm (i :: members fs) := by
  unfold Nic.link
  cases hlocate : locate (fun c => n.protocol c == n.protocol i) none n.tops with
  | none =>
    have hother := locate_none hlocate
    rw [h.tops_eq] at hother
    let first : Iface → Iface := fun x => { x with next := n.nicIface }
    refine ⟨(i, []) :: fs, h.newFamily hi hbound ?_ rfl ?_ ?_ ?_ rfl, List.Perm.refl _⟩
    · intro f hf heq
      have hne := hother f.1 (mem_map_of_mem hf)
      rw [heq, beq_self_eq_true] at hne
      cases hne
    · exact fun j => modify_next n i j first
    · exact fun j => modify_keeps n i j Iface.vlanNext (f := first) (fun _ => rfl)
    · exact fun j => modify_keeps n i j Iface.protocol (f := first) (fun _ => rfl)
  | some r =>
    obtain ⟨prev, current⟩ := r
    obtain ⟨front, back, htops, -, hstop, hprev⟩ := locate_some hlocate
    rw [h.tops_eq] at htops
    obtain ⟨before, chain, after, rfl, rfl⟩ := split_top htops
    dsimp only at hprev hstop ⊢
    rw [Option.or_none] at hprev
    have hcurrent := fst_mem_members
      (mem_append_right before (mem_cons_self (a := (current, chain)) (l := after)))
    have hne : current ≠ i := ne_of_mem_of_not_mem hcurrent hi
    refine ⟨before ++ (i, current :: chain) :: after,
      h.newTop hi hbound (beq_iff_eq.mp hstop) ?_ ?_ ?_ ?_ ?_, ?_⟩
    · rw [setTop_nicIface, ← hprev]
      rfl
    · intro j
      rw [setTop_next, modify_next, modify_next, ← hprev]
    · intro j
      rw [setTop_vlanNext, modify_vlanNext, modify_vlanNext]
      by_cases hj : j = current
      · have hji : j ≠ i := fun heq => hne (hj ▸ heq)
        rw [if_pos hj, if_neg hji]
        change (n.modify i _).vlanNext j = n.vlanNext j
        rw [modify_vlanNext, if_neg hji]
      · rw [if_neg hj]
    · intro j
      rw [setTop_protocol, modify_protocol, modify_protocol]
      all_goals exact fun _ => rfl
    · rw [setTop_allocated]
      rfl
    · rw [members_append, members_cons, members_append, members_cons]
      exact perm_middle

/-! ## Moving an interface to the top -/

section MoveUp

variable (n : Nic) (prev : Option Nat) (current prevVlan i j : Nat)

theorem modify_next_same {f : Iface → Iface}
    (hf : ∀ x, (f x).next = x.next) : (n.modify i f).next j = n.next j :=
  modify_keeps n i j Iface.next hf

theorem moveUp_next :
    (n.moveUp prev current prevVlan i).next j = if prev = some j then some i else n.next j := by
  unfold Nic.moveUp
  rw [setTop_next, modify_next_same, modify_next_same]
  all_goals exact fun _ => rfl

theorem moveUp_vlanNext :
    (n.moveUp prev current prevVlan i).vlanNext j =
      if j = i then some current else if j = prevVlan then n.vlanNext i else n.vlanNext j := by
  unfold Nic.moveUp
  rw [setTop_vlanNext, modify_vlanNext, modify_vlanNext]

theorem moveUp_protocol :
    (n.moveUp prev current prevVlan i).protocol j = n.protocol j := by
  unfold Nic.moveUp
  rw [setTop_protocol, modify_protocol, modify_protocol]
  all_goals exact fun _ => rfl

theorem moveUp_allocated :
    (n.moveUp prev current prevVlan i).allocated = n.allocated :=
  setTop_allocated _ prev i

theorem moveUp_nicIface :
    (n.moveUp prev current prevVlan i).nicIface = if prev = none then some i else n.nicIface :=
  setTop_nicIface _ prev i

theorem moveUp_linked :
    (n.moveUp prev current prevVlan i).linked = n.linked := by
  cases prev <;> rfl

end MoveUp

/-- The chain behind an interface that has been moved to the top. -/
theorem Seg.moveUp {vlanNext vlanNext' : Nat → Option Nat} {current i : Nat} {back : List Nat}
    (h : Seg vlanNext (vlanNext current) (front ++ i :: back) none)
    (hnodup : (current :: (front ++ i :: back)).Nodup)
    (hvlan : ∀ j, vlanNext' j = if j = i then some current else if j =
      front.getLast?.getD current then vlanNext i else vlanNext j) :
    Seg vlanNext' (vlanNext' i) (current :: (front ++ back)) none := by
  rw [seg_middle] at h
  have hstart : Seg vlanNext (some current) (current :: front) (some i) := ⟨rfl, h.1⟩
  have hlist : (current :: (front ++ i :: back)) = (current :: front) ++ i :: back := rfl
  rw [hlist, nodup_append] at hnodup
  obtain ⟨hfront, hback, hapart⟩ := hnodup
  have hlast : (current :: front).getLast? = some (front.getLast?.getD current) := getLast?_cons
  have hturn := hstart.retarget hfront (vlanNext i)
  rw [if_neg (cons_ne_nil current front)] at hturn
  have hi : vlanNext' i = some current := by
    rw [hvlan, if_pos rfl]
  have hwhole : Seg vlanNext' (some current) ((current :: front) ++ back) none := by
    rw [seg_append]
    refine ⟨vlanNext i, hturn.congr ?_, h.2.congr ?_⟩
    · intro j hj
      rw [hvlan, if_neg (hapart j hj i mem_cons_self), hlast]
      by_cases hprev : j = front.getLast?.getD current
      · rw [if_pos hprev, if_pos (congrArg some hprev.symm)]
      · rw [if_neg hprev, if_neg (fun heq => hprev (Option.some.inj heq).symm)]
    · intro j hj
      have hji : j ≠ i := fun heq => (nodup_cons.mp hback).1 (heq ▸ hj)
      have hjlast : j ≠ front.getLast?.getD current := by
        intro heq
        refine hapart j ?_ j (mem_cons_of_mem i hj) rfl
        rw [heq]
        exact mem_of_getLast? hlast
      rw [hvlan, if_neg hji, if_neg hjlast]
  rw [hi]
  exact hwhole

theorem members_moveUp (front : List (Nat × List Nat)) (current i : Nat) (before after : List Nat) :
    (members (front ++ [(i, current :: (before ++ after))])).Perm
      (members (front ++ [(current, before ++ i :: after)])) := by
  rw [members_append, members_append, members_cons, members_cons]
  refine List.Perm.append_left _ (List.Perm.append_right _ ?_)
  refine (List.Perm.swap current i _).trans (List.Perm.cons current ?_)
  exact perm_middle.symm

/-- An interface of the last family moves to its top. -/
theorem Tree.moveUp {front : List (Nat × List Nat)} {current i : Nat}
    {before after : List Nat} (h : Tree n (front ++ [(current, before ++ i :: after)])) :
    Tree (n.moveUp (front.map Prod.fst).getLast? current (before.getLast?.getD current) i)
      (front ++ [(i, current :: (before ++ after))]) := by
  have hfamily : (current, before ++ i :: after) ∈ front ++ [(current, before ++ i :: after)] :=
    mem_append_right _ (mem_singleton_self _)
  have hperm := members_moveUp front current i before after
  have hin : i ∈ before ++ i :: after := mem_append_right _ mem_cons_self
  have hrest : before ++ after ⊆ before ++ i :: after :=
    ((sublist_cons_self i after).append_left before).subset
  have hnotlast : ∀ j ∈ current :: (before ++ i :: after), (front.map Prod.fst).getLast? ≠ some j :=
    fun j hj => last_ne h.nodup (.inl (mem_append_left _ hj))
  have hprevVlan : before.getLast?.getD current ∈ current :: (before ++ i :: after) := by
    cases hb : before.getLast? with
    | none => exact mem_cons_self
    | some b => exact mem_cons_of_mem _ (mem_append_left _ (mem_of_getLast? hb))
  have hend : n.next current = none := by
    have htops := h.tops
    rw [map_append, map_cons, seg_middle] at htops
    exact htops.2
  refine h.replace ?_ ?_ (moveUp_allocated _ _ _ _ _) (moveUp_nicIface _ _ _ _ _) ?_ ?_
    (moveUp_protocol _ _ _ _ _) ?_ ?_ ?_ ?_ ?_
  · exact hperm.nodup_iff.mpr h.nodup
  · intro j hj
    rw [moveUp_allocated]
    refine h.bound j (hperm.mem_iff.mp ?_)
    exact mem_members.mpr ⟨_, mem_append_right _ (mem_singleton_self _), mem_cons.mp hj⟩
  · intro j _
    exact moveUp_next _ _ _ _ _ _
  · intro j hj
    have hne : ∀ k ∈ current :: (before ++ i :: after), j ≠ k :=
      fun k hk heq => (others_apart h.nodup hj).2 (heq ▸ hk)
    rw [moveUp_vlanNext, if_neg (hne i (mem_cons_of_mem _ hin)), if_neg (hne _ hprevVlan)]
  · rw [moveUp_next, if_neg (hnotlast i (mem_cons_of_mem _ hin)), hend]
    exact h.inner _ hfamily i hin
  · exact Seg.moveUp (h.chains _ hfamily) ((nodup_flatMap.mp h.nodup).1 _ hfamily) (moveUp_vlanNext _ _ _ _ _)
  · refine forall_mem_cons.mpr ⟨?_, ?_⟩
    · rw [moveUp_next, if_neg (hnotlast current mem_cons_self), hend]
    · intro j hj
      rw [moveUp_next, if_neg (hnotlast j (mem_cons_of_mem _ (hrest hj)))]
      exact h.inner _ hfamily j (hrest hj)
  · refine forall_mem_cons.mpr ⟨h.family _ hfamily i hin,
      forall_mem_cons.mpr ⟨rfl, fun j hj => h.family _ hfamily j (hrest hj)⟩⟩
  · intro j hj
    rw [hperm.mem_iff] at hj
    have hne : ∀ k ∈ current :: (before ++ i :: after), j ≠ k := by
      intro k hk heq
      exact hj (mem_members.mpr ⟨_, hfamily, mem_cons.mp (heq ▸ hk)⟩)
    rw [moveUp_next, if_neg (last_ne h.nodup (.inr hj)), moveUp_vlanNext,
      if_neg (hne i (mem_cons_of_mem _ hin)), if_neg (hne _ hprevVlan)]
    exact h.spare j hj

/-- What `set_nic_iface` does to a tree: nothing, or one interface moves up. -/
theorem Tree.setFrom_cases {before after : List (Nat × List Nat)}
    (h : Tree n (before ++ after)) (i : Nat) :
    n.setFrom i (before.map Prod.fst).getLast? (after.map Prod.fst) = n ∨
      ∃ front current chain rest back,
        before ++ after = front ++ (current, chain ++ i :: rest) :: back ∧
        n.setFrom i (before.map Prod.fst).getLast? (after.map Prod.fst) =
          n.moveUp (front.map Prod.fst).getLast? current (chain.getLast?.getD current) i := by
  induction after generalizing before with
  | nil => exact .inl rfl
  | cons f after ih =>
    have hf : f ∈ before ++ f :: after := mem_append_right _ mem_cons_self
    have hassoc : before ++ f :: after = before ++ [f] ++ after := by
      rw [append_assoc, singleton_append]
    have hnext : some f.1 = ((before ++ [f]).map Prod.fst).getLast? := by
      rw [map_append, map_cons, getLast?_append]
      rfl
    have htail := ih (hassoc ▸ h)
    rw [← hnext, ← hassoc] at htail
    rw [map_cons, Nic.setFrom]
    split
    · exact htail
    · split
      · exact .inl rfl
      · rw [h.vlans_eq hf]
        cases hlocate : locate (· == i) (some f.1) f.2 with
        | none => exact htail
        | some r =>
          obtain ⟨prevVlan, found⟩ := r
          obtain ⟨chain, rest, hchain, -, hfound, hprev⟩ := locate_some hlocate
          dsimp only at hchain hfound hprev ⊢
          obtain rfl : found = i := beq_iff_eq.mp hfound
          refine .inr ⟨before, f.1, chain, rest, after, ?_, ?_⟩
          · rw [← hchain]
          · have hgetD : prevVlan.getD f.1 = chain.getLast?.getD f.1 := by
              rw [hprev]
              cases chain.getLast? <;> rfl
            rw [hgetD]

/-! ## Runs of calls -/

def Kept (n : Nic) : Prop := ∃ fs, Tree n fs ∧ (members fs).Perm n.linked

/-- A call of `set_nic_iface` for an interface behind the top of its family finds that family
at the end of the list. -/
def LastFamily (n : Nic) : Call → Prop
  | .set i => ∀ top ∈ n.tops, i ∈ n.vlans top → n.next top = none
  | _ => True

theorem Tree.relinked (h : Tree n fs) (linked : List Nat) :
    Tree { n with linked := linked } fs :=
  h.congr rfl (fun _ => rfl) (fun _ => rfl) (fun _ _ => rfl) (Nat.le_refl _)

theorem Kept.add (h : Kept n) {i : Nat} (hi : i < n.allocated) :
    Kept (nicAddNicIface n i) := by
  obtain ⟨fs, htree, hlinked⟩ := h
  unfold nicAddNicIface
  split
  · exact ⟨fs, htree, hlinked⟩
  · rename_i hnew
    have hmem : i ∉ members fs := fun hmem => hnew (htree.find_self hmem)
    obtain ⟨gs, hgs, hperm⟩ := htree.link hmem hi
    refine ⟨gs, hgs.relinked _, hperm.trans ?_⟩
    exact (List.Perm.cons i hlinked).trans (perm_append_singleton i n.linked).symm

theorem Kept.set (h : Kept n) {i : Nat} (hlast : LastFamily n (.set i)) :
    Kept (setNicIface n i) := by
  obtain ⟨fs, htree, hlinked⟩ := h
  have hwhole : Tree n ([] ++ fs) := htree
  have hcases := hwhole.setFrom_cases i
  unfold setNicIface
  rw [htree.tops_eq]
  rcases hcases with hsame | ⟨front, current, chain, rest, back, hfs, hmoved⟩
  · rw [map_nil, getLast?_nil] at hsame
    rw [hsame]
    exact ⟨fs, htree, hlinked⟩
  · rw [map_nil, getLast?_nil] at hmoved
    rw [nil_append] at hfs
    rw [hmoved]
    subst hfs
    have hfamily : (current, chain ++ i :: rest) ∈ front ++ (current, chain ++ i :: rest) :: back :=
      mem_append_right _ mem_cons_self
    -- the family is the last one, since nothing is linked behind its top
    have hback : back = [] := by
      have hend : n.next current = none := by
        refine hlast current ?_ ?_
        · rw [htree.tops_eq]
          exact mem_map_of_mem hfamily
        · rw [htree.vlans_eq hfamily]
          exact mem_append_right _ mem_cons_self
      have htops := htree.tops
      rw [map_append, map_cons, seg_middle, hend] at htops
      cases back with
      | nil => rfl
      | cons g back => exact absurd htops.2.1 (by simp)
    subst hback
    refine ⟨_, htree.moveUp, ?_⟩
    rw [moveUp_linked]
    exact (members_moveUp front current i chain rest).trans hlinked

theorem step_kept (n : Nic) (c : Call) (h : Kept n) (hlast : LastFamily n c) : Kept (step n c) := by
  cases c with
  | init protocol vlanId ifaceNum requestType =>
    obtain ⟨fs, htree, hlinked⟩ := h
    exact ⟨fs, htree.init protocol vlanId ifaceNum requestType, hlinked⟩
  | add i =>
    rw [step]
    split
    · rename_i hi
      exact h.add hi
    · exact h
  | set i =>
    rw [step]
    split
    · exact h.set hlast
    · exact h
  | flag i acquire =>
    obtain ⟨fs, htree, hlinked⟩ := h
    exact ⟨fs, htree.flag i acquire, hlinked⟩

theorem run_kept {calls : List Call} (hguard : Guarded step LastFamily Nic.empty calls) :
    Kept (run step Nic.empty calls) :=
  hguard.run_invariant step_kept ⟨[], Tree.empty, List.Perm.refl _⟩

/-- The shape of the tree as the loops see it: every interface linked so far is reached once,
there is one top-level interface for each protocol, and its chain has that protocol. -/
structure Shape (n : Nic) : Prop where
  once : n.reached.Nodup
  all : n.reached.Perm n.linked
  one : (n.tops.map n.protocol).Nodup
  family : ∀ i ∈ n.tops, ∀ j ∈ n.vlans i, n.protocol j = n.protocol i

theorem Kept.shape (h : Kept n) : Shape n := by
  obtain ⟨fs, htree, hlinked⟩ := h
  refine ⟨?_, ?_, ?_, ?_⟩
  · rw [htree.reached_eq]
    exact htree.nodup
  · rw [htree.reached_eq]
    exact hlinked
  · rw [htree.tops_eq, map_map]
    exact htree.one
  · rw [htree.tops_eq]
    intro i hi j hj
    obtain ⟨f, hf, rfl⟩ := mem_map.mp hi
    rw [htree.vlans_eq hf] at hj
    exact htree.family f hf j hj

/-! ## Acquisition -/

/-- The loop over a chain ends at its first interface, whose `next` is not set. -/
theorem Tree.follow_chain (h : Tree n fs) (hf : f ∈ fs) :
    follow n.next n.allocated (n.vlanNext f.1) = f.2.take 1 := by
  have hchain := h.chains f hf
  cases hlist : f.2 with
  | nil =>
    rw [hlist] at hchain
    have hnone : n.vlanNext f.1 = none := hchain
    rw [hnone]
    cases n.allocated <;> rfl
  | cons j rest =>
    rw [hlist] at hchain
    have hj : j ∈ f.2 := hlist ▸ mem_cons_self
    have hseg : Seg n.next (n.vlanNext f.1) [j] none := ⟨hchain.1, h.inner f hf j hj⟩
    have hbound := h.bound j (snd_mem_members hf hj)
    exact hseg.follow_eq (Nat.lt_of_le_of_lt (Nat.zero_le j) hbound)

theorem Tree.mem_acquired (h : Tree n fs) {i : Nat} :
    i ∈ acquired n ↔ (∃ f ∈ fs, i ∈ f.1 :: f.2.take 1) ∧ (n.iface i).acquire = true := by
  unfold acquired
  rw [h.tops_eq, flatMap_map, mem_flatMap]
  constructor
  · rintro ⟨f, hf, hi⟩
    rw [h.follow_chain hf, mem_filter] at hi
    exact ⟨⟨f, hf, hi.1⟩, hi.2⟩
  · rintro ⟨⟨f, hf, hi⟩, hflag⟩
    refine ⟨f, hf, ?_⟩
    rw [h.follow_chain hf, mem_filter]
    exact ⟨hi, hflag⟩

/-- An interface behind the first of a chain is missed. -/
theorem Tree.not_acquired (h : Tree n fs) (hf : f ∈ fs) {j : Nat} (hj : j ∈ f.2.tail) :
    j ∉ acquired n := by
  have hchain : j ∈ f.2 := mem_of_mem_tail hj
  intro hmem
  obtain ⟨⟨e, he, hje⟩, -⟩ := h.mem_acquired.mp hmem
  have hwhole : j ∈ e.1 :: e.2 := by
    rcases mem_cons.mp hje with rfl | hje
    · exact mem_cons_self
    · exact mem_cons_of_mem _ (mem_of_mem_take hje)
  obtain rfl := same_family h.nodup he hf hwhole (mem_cons_of_mem _ hchain)
  rcases mem_cons.mp hje with rfl | hje
  · exact inner_not_top h.nodup he hchain (mem_map_of_mem he)
  · have hnodup := (nodup_cons.mp ((nodup_flatMap.mp h.nodup).1 e he)).2
    cases hlist : e.2 with
    | nil =>
      rw [hlist] at hje
      exact absurd hje not_mem_nil
    | cons a rest =>
      rw [hlist] at hje hj hnodup
      obtain rfl : j = a := mem_singleton.mp hje
      exact (nodup_cons.mp hnodup).1 hj

/-- `nic_loop` acquires an address for every interface that asks for one exactly if none of
those is behind the first of a chain. -/
theorem Kept.acquired_iff (h : Kept n) :
    (∀ i ∈ n.linked, (n.iface i).acquire = true → i ∈ acquired n) ↔
      ∀ top ∈ n.tops, ∀ j ∈ (n.vlans top).tail, (n.iface j).acquire = false := by
  obtain ⟨fs, htree, hlinked⟩ := h
  rw [htree.tops_eq]
  constructor
  · intro hall top htop j hj
    obtain ⟨f, hf, rfl⟩ := mem_map.mp htop
    rw [htree.vlans_eq hf] at hj
    have hmem := hlinked.mem_iff.mp (snd_mem_members hf (mem_of_mem_tail hj))
    by_contra hflag
    exact htree.not_acquired hf hj (hall j hmem (Bool.not_eq_false _ ▸ hflag))
  · intro htail i hi hflag
    obtain ⟨f, hf, hmem⟩ := mem_members.mp (hlinked.mem_iff.mpr hi)
    refine htree.mem_acquired.mpr ⟨⟨f, hf, ?_⟩, hflag⟩
    rcases hmem with rfl | hmem
    · exact mem_cons_self
    · have hnone := htail f.1 (mem_map_of_mem hf) i
      rw [htree.vlans_eq hf] at hnone
      refine mem_cons_of_mem _ ?_
      cases hlist : f.2 with
      | nil =>
        rw [hlist] at hmem
        exact absurd hmem not_mem_nil
      | cons a rest =>
        rw [hlist] at hmem hnone
        rcases mem_cons.mp hmem with rfl | hmem
        · exact mem_singleton_self i
        · rw [hnone hmem] at hflag
          cases hflag

/-- In every run in which `set_nic_iface` only moves interfaces of the last family, the tree
keeps its shape, and what `nic_loop` acquires is complete exactly if no interface that asks
for it is behind the first of a chain. -/
theorem tree_keeps_shape (calls : List Call)
    (hguard : Guarded step LastFamily Nic.empty calls) :
    Shape (run step Nic.empty calls) ∧
      ((∀ i ∈ (run step Nic.empty calls).linked,
          ((run step Nic.empty calls).iface i).acquire = true → i ∈ acquired (run step Nic.empty calls)) ↔
        ∀ top ∈ (run step Nic.empty calls).tops, ∀ j ∈ ((run step Nic.empty calls).vlans top).tail,
          ((run step Nic.empty calls).iface j).acquire = false) :=
  ⟨(run_kept hguard).shape, (run_kept hguard).acquired_iff⟩

def afInet : Nat := 2

def afInet6 : Nat := 10

/-- Two IPv4 interfaces and an IPv6 interface; IPv6 is added first and so is the last family. -/
def threeIfaces : List Call :=
  [.init afInet6 0 0 1, .init afInet 0 0 1, .init afInet 5 1 1, .add 0, .add 1, .add 2]

theorem tree_keeps_shape_three : Shape (run step Nic.empty threeIfaces) := by
  refine (tree_keeps_shape threeIfaces ?_).1
  exact ⟨trivial, trivial, trivial, trivial, trivial, trivial, trivial⟩

/-- Moving the inner IPv4 interface to the top loses the IPv6 interface; and of three
interfaces of one protocol `nic_loop` acquires two. -/
theorem tree_loses_family :
    (run step Nic.empty (threeIfaces ++ [.set 1])).linked = [0, 1, 2] ∧
      (run step Nic.empty (threeIfaces ++ [.set 1])).reached = [1, 2] ∧
      acquired (run step Nic.empty [.init afInet 0 0 1, .init afInet 5 1 1, .init afInet 6 2 1, .add 0,
        .add 1, .add 2, .flag 0 true, .flag 1 true, .flag 2 true]) = [2, 1] := by
  decide

end NicTree
