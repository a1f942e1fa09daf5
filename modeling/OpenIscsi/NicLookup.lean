import OpenIscsi.NicTree

/-!
# Looking up an interface

What `nic_find_nic_iface` finds in a well-formed tree, compared with the interfaces that the
query describes. Only the request for the top of a family, with `NO_VLAN`, depends on
the order by design.
-/

namespace NicLookup

open NicTree List

/-- The interface is one that the query asks for. -/
def Matches (q : Query) (x : Iface) : Prop :=
  x.protocol = q.protocol ∧
    if q.ifaceNum ≠ ifaceNumInvalid then
      x.ifaceNum = q.ifaceNum ∧
        (q.ifaceNum = 0 → q.requestType ≠ ipConfigOff → x.requestType = q.requestType)
    else x.vlanId = q.vlanId ∧ (q.requestType ≠ ipConfigOff → x.requestType = q.requestType)

/-- A lookup returns an interface that matches, and none only where none does. -/
def FindsRight (n : Nic) (q : Query) (fs : List (Nat × List Nat)) : Prop :=
  match nicFindNicIface n q with
  | some i => i ∈ members fs ∧ Matches q (n.iface i)
  | none => ∀ i ∈ members fs, ¬ Matches q (n.iface i)

/-- Where a number is given, an interface in the chain that has the VLAN of the query but
not its number comes behind one with the number. -/
def NumberFirst (n : Nic) (q : Query) (fs : List (Nat × List Nat)) : Prop :=
  q.ifaceNum ≠ ifaceNumInvalid → ∀ f ∈ fs, n.protocol f.1 = q.protocol →
    q.byNum (n.iface f.1) = true ∨
      ∀ front j back, f.2 = front ++ j :: back → q.byVlan (n.iface j) = true →
        q.byNum (n.iface j) = false → ∃ k ∈ front, q.byNum (n.iface k) = true

/-! ## One family -/

theorem byNum_iff (q : Query) (x : Iface) :
    q.byNum x = true ↔ x.ifaceNum = q.ifaceNum ∧
      (q.ifaceNum = 0 → q.requestType ≠ ipConfigOff → x.requestType = q.requestType) := by
  unfold Query.byNum
  by_cases hzero : q.ifaceNum = 0
  · by_cases hoff : q.requestType = ipConfigOff <;> simp [hzero, hoff]
  · simp [hzero]

theorem byVlan_iff (q : Query) (x : Iface) :
    q.byVlan x = true ↔ x.vlanId = q.vlanId ∧
      (q.requestType ≠ ipConfigOff → x.requestType = q.requestType) := by
  unfold Query.byVlan
  by_cases hoff : q.requestType = ipConfigOff <;> simp [hoff]

variable {n : Nic} {fs : List (Nat × List Nat)} {q : Query}

theorem matches_num (hnum : q.ifaceNum ≠ ifaceNumInvalid) (x : Iface) :
    Matches q x ↔ x.protocol = q.protocol ∧ q.byNum x = true := by
  rw [Matches, if_pos hnum, byNum_iff]

theorem matches_vlan (hnum : q.ifaceNum = ifaceNumInvalid) (x : Iface) :
    Matches q x ↔ x.protocol = q.protocol ∧ q.byVlan x = true := by
  rw [Matches, if_neg (fun h => h hnum), byVlan_iff]

/-- What the lookup makes of the family of the protocol. -/
def findFamily (n : Nic) (q : Query) (f : Nat × List Nat) : Option Nat :=
  if q.top (n.iface f.1) then some f.1 else f.2.find? (fun j => q.behind (n.iface j))

variable {f : Nat × List Nat}

theorem findIn_eq (h : Tree n fs) (q : Query) (hf : f ∈ fs) :
    n.findIn q f.1 = if n.protocol f.1 = q.protocol then findFamily n q f else none := by
  unfold Nic.findIn findFamily
  rw [h.vlans_eq hf, ite_not]

/-- Without a family of the protocol nothing is found. -/
theorem find_eq_none (h : Tree n fs) (q : Query)
    (hno : ∀ f ∈ fs, n.protocol f.1 ≠ q.protocol) : nicFindNicIface n q = none := by
  unfold nicFindNicIface
  rw [h.tops_eq, findSome?_eq_none_iff]
  intro i hi
  obtain ⟨f, hf, rfl⟩ := mem_map.mp hi
  rw [findIn_eq h q hf, if_neg (hno f hf)]

/-- There is one family of a protocol, and the lookup is the search in it. -/
theorem find_eq_family (h : Tree n fs) (q : Query) (hf : f ∈ fs)
    (hprotocol : n.protocol f.1 = q.protocol) :
    nicFindNicIface n q = findFamily n q f := by
  obtain ⟨front, back, rfl⟩ := append_of_mem hf
  have hone := h.one
  rw [map_append, map_cons, nodup_append, nodup_cons] at hone
  obtain ⟨-, ⟨hback, -⟩, hfront⟩ := hone
  have hnone : ∀ e ∈ front ++ back, n.findIn q e.1 = none := by
    intro e he
    have hmem : e ∈ front ++ f :: back := by
      rcases mem_append.mp he with he | he
      · exact mem_append_left _ he
      · exact mem_append_right _ (mem_cons_of_mem f he)
    rw [findIn_eq h q hmem, if_neg]
    intro hsame
    have hff : n.protocol e.1 = n.protocol f.1 := hsame.trans hprotocol.symm
    rcases mem_append.mp he with he | he
    · exact hfront _ (mem_map_of_mem he) _ mem_cons_self hff
    · exact hback (mem_map.mpr ⟨e, he, hff⟩)
  have hskip : ∀ es : List (Nat × List Nat), (∀ e ∈ es, e ∈ front ++ back) →
      (es.map Prod.fst).findSome? (n.findIn q) = none := by
    intro es hes
    rw [findSome?_eq_none_iff]
    intro i hi
    obtain ⟨e, he, rfl⟩ := mem_map.mp hi
    exact hnone e (hes e he)
  unfold nicFindNicIface
  rw [h.tops_eq, map_append, map_cons, findSome?_append,
    hskip front (fun e he => mem_append_left _ he), Option.none_or, findSome?_cons,
    findIn_eq h q hf, if_pos hprotocol]
  cases findFamily n q f with
  | some i => rfl
  | none => exact hskip back (fun e he => mem_append_right _ he)

theorem mem_family (h : Tree n fs) (hf : f ∈ fs) (hprotocol : n.protocol f.1 = q.protocol) {i : Nat}
    (hi : i ∈ members fs) :
    n.protocol i = q.protocol ↔ i ∈ f.1 :: f.2 := by
  obtain ⟨e, he, hmem⟩ := mem_members.mp hi
  have hfamily : n.protocol i = n.protocol e.1 := by
    rcases hmem with rfl | hmem
    · rfl
    · exact h.family e he i hmem
  constructor
  · intro hsame
    have hef : n.protocol e.1 = n.protocol f.1 := hfamily.symm.trans (hsame.trans hprotocol.symm)
    have hinj := inj_on_of_nodup_map h.one he hf hef
    exact mem_cons.mpr (hinj ▸ hmem)
  · intro hin
    rcases mem_cons.mp hin with rfl | hin
    · exact hprotocol
    · exact (h.family f hf i hin).trans hprotocol

/-- A search that also stops at `Q` finds an element with `P`, if anything, exactly if each one
with `Q` alone is behind one with `P`. -/
theorem find?_or_iff {α : Type} (P Q : α → Bool) (l : List α) :
    (∀ j, l.find? (fun j => P j || Q j) = some j → P j = true) ↔
      ∀ front j back, l = front ++ j :: back → Q j = true → P j = false →
        ∃ k ∈ front, P k = true := by
  constructor
  · rintro h front j back rfl hQ hP
    rw [find?_append] at h
    cases hfind : front.find? (fun j => P j || Q j) with
    | some k => exact ⟨k, mem_of_find?_eq_some hfind, h k (by rw [hfind]; rfl)⟩
    | none =>
      have hj : P j = true := h j (by rw [hfind, find?_cons_of_pos (by simp [hQ])]; rfl)
      rw [hP] at hj
      cases hj
  · intro h j hfind
    obtain ⟨hj, front, back, rfl, hfront⟩ := find?_eq_some_iff_append.1 hfind
    by_contra hP
    have hQ : Q j = true := by simpa [hP] using hj
    obtain ⟨k, hk, hPk⟩ := h front j back rfl hQ (Bool.eq_false_iff.2 hP)
    simpa [hPk] using hfront k hk

/-- The search in a family whose interfaces match by `P`, where the chain is also searched by
`Q`. -/
theorem findsRight_iff_of (h : Tree n fs) (hf : f ∈ fs) (hprotocol : n.protocol f.1 = q.protocol)
    {P Q : Iface → Bool} (hmatches : ∀ x, Matches q x ↔ x.protocol = q.protocol ∧ P x = true)
    (htop : ∀ x, q.top x = P x) (hbehind : ∀ x, q.behind x = (P x || Q x)) :
    FindsRight n q fs ↔ P (n.iface f.1) = true ∨
      ∀ front j back, f.2 = front ++ j :: back → Q (n.iface j) = true → P (n.iface j) = false →
        ∃ k ∈ front, P (n.iface k) = true := by
  have hin : ∀ i ∈ f.1 :: f.2, i ∈ members fs ∧ n.protocol i = q.protocol := by
    intro i hi
    have hmem := mem_members.mpr ⟨f, hf, mem_cons.mp hi⟩
    exact ⟨hmem, (mem_family h hf hprotocol hmem).mpr hi⟩
  unfold FindsRight
  rw [find_eq_family h q hf hprotocol, findFamily, htop]
  cases hhead : P (n.iface f.1) with
  | true =>
    obtain ⟨hmem, hproto⟩ := hin f.1 mem_cons_self
    exact iff_of_true ⟨hmem, (hmatches _).mpr ⟨hproto, hhead⟩⟩ (.inl rfl)
  | false =>
    rw [if_neg Bool.false_ne_true]
    simp only [hbehind]
    have hsearch := find?_or_iff (fun j => P (n.iface j)) (fun j => Q (n.iface j)) f.2
    rw [← hsearch]
    cases hfind : f.2.find? (fun j => P (n.iface j) || Q (n.iface j)) with
    | none =>
      refine iff_of_true (fun i hi hmatch => ?_) (.inr (fun j hj => by cases hj))
      rw [hmatches] at hmatch
      rw [find?_eq_none] at hfind
      rcases mem_cons.mp ((mem_family h hf hprotocol hi).mp hmatch.1) with rfl | hchain
      · rw [hhead] at hmatch
        cases hmatch.2
      · refine hfind i hchain ?_
        rw [hmatch.2, Bool.true_or]
    | some j =>
      obtain ⟨hmem, hproto⟩ := hin j (mem_cons_of_mem _ (mem_of_find?_eq_some hfind))
      dsimp only
      rw [hmatches]
      constructor
      · rintro ⟨-, -, hP⟩
        refine .inr (fun k hk => ?_)
        rw [← Option.some.inj hk]
        exact hP
      · rintro (hfalse | hall)
        · cases hfalse
        · exact ⟨hmem, hproto, hall j rfl⟩

/-- Without a family of the protocol nothing is found, and nothing matches. -/
theorem findsRight_no_family (h : Tree n fs) (hno : ∀ f ∈ fs, n.protocol f.1 ≠ q.protocol) :
    FindsRight n q fs := by
  unfold FindsRight
  rw [find_eq_none h q hno]
  intro i hi hmatch
  obtain ⟨f, hf, hmem⟩ := mem_members.mp hi
  rcases hmem with rfl | hmem
  · exact hno f hf hmatch.1
  · exact hno f hf ((h.family f hf i hmem).symm.trans hmatch.1)

/-- Without a number the lookup is right. -/
theorem findsRight_by_vlan (h : Tree n fs) (hvlan : q.vlanId ≠ noVlan)
    (hnum : q.ifaceNum = ifaceNumInvalid) : FindsRight n q fs := by
  by_cases hfamily : ∃ f ∈ fs, n.protocol f.1 = q.protocol
  · obtain ⟨f, hf, hprotocol⟩ := hfamily
    refine (findsRight_iff_of h hf hprotocol (Q := fun _ => false) (matches_vlan hnum) ?_ ?_).mpr
      (.inr (fun _ _ _ _ hQ => by cases hQ))
    · intro x
      rw [Query.top, if_neg (fun hne => hne hnum), if_neg hvlan]
    · intro x
      simp [Query.behind, hnum]
  · exact findsRight_no_family h (fun f hf hsame => hfamily ⟨f, hf, hsame⟩)

/-- A lookup other than for the top of a family finds an interface that matches, if there is
one, exactly if in the chain the VLAN never hides the number. -/
theorem lookup_right_iff {n : Nic} {fs : List (Nat × List Nat)} (h : Tree n fs) (q : Query)
    (hvlan : q.vlanId ≠ noVlan) : FindsRight n q fs ↔ NumberFirst n q fs := by
  by_cases hnum : q.ifaceNum = ifaceNumInvalid
  · exact iff_of_true (findsRight_by_vlan h hvlan hnum) (fun hne => absurd hnum hne)
  · by_cases hfamily : ∃ f ∈ fs, n.protocol f.1 = q.protocol
    · obtain ⟨f, hf, hprotocol⟩ := hfamily
      have honly : ∀ e ∈ fs, n.protocol e.1 = q.protocol → e = f := fun e he hsame =>
        inj_on_of_nodup_map h.one he hf (hsame.trans hprotocol.symm)
      refine (findsRight_iff_of h hf hprotocol (Q := q.byVlan) (matches_num hnum) ?_ ?_).trans ?_
      · intro x
        rw [Query.top, if_pos hnum]
      · intro x
        simp [Query.behind, hnum]
      · constructor
        · intro hright _ e he hsame
          rw [honly e he hsame]
          exact hright
        · intro hfirst
          exact hfirst hnum f hf hprotocol
    · have hno : ∀ f ∈ fs, n.protocol f.1 ≠ q.protocol :=
        fun f hf hsame => hfamily ⟨f, hf, hsame⟩
      exact iff_of_true (findsRight_no_family h hno) (fun _ f hf hsame => absurd hsame (hno f hf))

/-- Two IPv4 interfaces without a VLAN, with the numbers 1 and 2. -/
def twoIfaces : Nic := Runs.run step Nic.empty [.init afInet 0 1 1, .init afInet 0 2 1, .add 0, .add 1]

theorem twoIfaces_kept : Kept twoIfaces :=
  run_kept ⟨trivial, trivial, trivial, trivial, trivial⟩

theorem lookup_right_by_vlan :
    ∃ fs, Tree twoIfaces fs ∧ FindsRight twoIfaces ⟨afInet, 0, ifaceNumInvalid, 1⟩ fs := by
  obtain ⟨fs, htree, -⟩ := twoIfaces_kept
  refine ⟨fs, htree, (lookup_right_iff htree ⟨afInet, 0, ifaceNumInvalid, 1⟩ (by decide)).mpr ?_⟩
  intro hnum
  exact absurd rfl hnum

/-- A third interface is taken for the one with number 1, which is in the chain and has no
VLAN either. -/
theorem lookup_by_vlan_instead :
    nicFindNicIface twoIfaces ⟨afInet, 0, 3, 1⟩ = some 0 ∧ (twoIfaces.iface 0).ifaceNum = 1 ∧
      ∃ fs, Tree twoIfaces fs ∧ ¬ FindsRight twoIfaces ⟨afInet, 0, 3, 1⟩ fs := by
  have hfound : nicFindNicIface twoIfaces ⟨afInet, 0, 3, 1⟩ = some 0 := by decide
  have hother : (twoIfaces.iface 0).ifaceNum = 1 := by decide
  obtain ⟨fs, htree, -⟩ := twoIfaces_kept
  refine ⟨hfound, hother, fs, htree, ?_⟩
  intro hright
  rw [FindsRight, hfound] at hright
  have hnum := ((matches_num (by decide) _).mp hright.2).2
  exact absurd hnum (by decide)

end NicLookup
