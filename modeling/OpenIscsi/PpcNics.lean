import OpenIscsi.Lib.CString
import OpenIscsi.Lib.Ranking

/-!
# The boot interface of a PowerPC machine

`find_nics`, `nic_cmp` and the sort in `loop_devs`, with the search of `fill_context`, all
of `fwparam_ppc.c`. The elements that `qsort` compares are pointers; what it hands to
`nic_cmp` is where they are stored. The walk through the device tree, the addresses
that `strdup` returns and the order of elements that compare equal are given.
-/

namespace PpcNics

open CString List
open Ranking (Arranged)

/-- An address of a 64-bit process; user space leaves the top byte zero. -/
def Address := { n : Nat // n < 2 ^ 56 }

deriving instance DecidableEq for Address

/-- The bytes of a pointer in memory, on a machine of either byte order. -/
def Address.bytes (bigEndian : Bool) (a : Address) : List UInt8 :=
  let low := (List.range 8).map (fun i => UInt8.ofNat (a.1 / 256 ^ i))
  if bigEndian then low.reverse else low

/-- The sign of `strcmp`, which compares bytes as `unsigned char`. -/
def strcmp (s t : List UInt8) : Ordering := cmp ((cstr s).map UInt8.toNat) ((cstr t).map UInt8.toNat)

/-- An element of `niclist`: the pointer and the string behind it. -/
structure Nic where
  address : Address
  path : List UInt8
  deriving DecidableEq

def ofwdevMax : Nat := 10

/-- A call of the callback of `nftw`. -/
structure Visit where
  fpath : List UInt8
  /-- `ftw->base` -/
  base : Nat
  /-- `FTW_D` -/
  isDir : Bool

def Visit.isNic (v : Visit) : Bool :=
  v.isDir && (strstr (v.fpath.drop v.base) (ascii "iscsi-toe") ||
    strstr (v.fpath.drop v.base) (ascii "ethernet"))

def findNics (devtreeOffset : Nat) (malloc : Nat → Address) (niclist : List Nic) (v : Visit) :
    List Nic :=
  if v.isNic then
    if niclist.length < ofwdevMax then
      niclist ++ [⟨malloc niclist.length, v.fpath.drop devtreeOffset⟩]
    else niclist
  else niclist

/-- The first walk of `loop_devs`. -/
def walk (devtreeOffset : Nat) (malloc : Nat → Address) (visits : List Visit) : List Nic :=
  visits.foldl (findNics devtreeOffset malloc) []

/-- `nic_cmp`: its arguments are used as strings, but they point to pointers. -/
def nicCmp (bigEndian : Bool) (a b : Nic) : Ordering :=
  strcmp (a.address.bytes bigEndian) (b.address.bytes bigEndian)

structure Qsort (bigEndian : Bool) (niclist sorted : List Nic) : Prop where
  perm : sorted.Perm niclist
  ordered : sorted.Pairwise (fun a b => nicCmp bigEndian a b ≠ .gt)

def ifNamesize : Nat := 16

/-- The loop of `fill_context`, from this index on. -/
def fillIface (devPath : List UInt8) : List Nic → Nat → List UInt8
  | [], _ => []
  | nic :: niclist, ndx =>
    if strcmp nic.path devPath = .eq then (strlcpy (ascii "eth" ++ decimal ndx) ifNamesize).1
    else fillIface devPath niclist (ndx + 1)

def fillContext (niclist : List Nic) (devPath : List UInt8) : List UInt8 := fillIface devPath niclist 0

/-! ## The walk -/

/-- The paths of all NIC nodes, in the order of the walk. -/
def nicPaths (devtreeOffset : Nat) (visits : List Visit) : List (List UInt8) :=
  (visits.filter Visit.isNic).map (fun v => v.fpath.drop devtreeOffset)

theorem walk_paths_from (devtreeOffset : Nat) (malloc : Nat → Address) (visits : List Visit)
    (niclist : List Nic) (hfew : niclist.length + (visits.filter Visit.isNic).length ≤ ofwdevMax) :
    (visits.foldl (findNics devtreeOffset malloc) niclist).map Nic.path =
      niclist.map Nic.path ++ nicPaths devtreeOffset visits := by
  induction visits generalizing niclist with
  | nil => simp [nicPaths]
  | cons v visits ih =>
    rw [foldl_cons]
    by_cases hnic : v.isNic = true
    · rw [filter_cons_of_pos hnic, length_cons] at hfew
      have hroom : niclist.length < ofwdevMax := by omega
      rw [findNics, if_pos hnic, if_pos hroom, ih]
      · simp [nicPaths, hnic]
      · rw [length_append, length_singleton]
        omega
    · rw [filter_cons_of_neg hnic] at hfew
      rw [findNics, if_neg hnic, ih niclist hfew]
      simp [nicPaths, hnic]

/-- All of them are found while there is room. -/
theorem walk_paths (devtreeOffset : Nat) (malloc : Nat → Address) (visits : List Visit)
    (hfew : (nicPaths devtreeOffset visits).length ≤ ofwdevMax) :
    (walk devtreeOffset malloc visits).map Nic.path = nicPaths devtreeOffset visits := by
  rw [nicPaths, length_map] at hfew
  exact walk_paths_from devtreeOffset malloc visits [] (by simpa using hfew)

/-! ## The sort and the search -/

variable {s t : List UInt8}

theorem strcmp_eq_gt_iff :
    strcmp s t = .gt ↔ (cstr t).map UInt8.toNat < (cstr s).map UInt8.toNat := by
  unfold strcmp cmp cmpUsing
  by_cases hlt : (cstr s).map UInt8.toNat < (cstr t).map UInt8.toNat
  · rw [if_pos hlt]
    exact iff_of_false (by decide) (lt_asymm hlt)
  · rw [if_neg hlt]
    split
    · rename_i hgt
      exact iff_of_true rfl hgt
    · rename_i hnot
      exact iff_of_false (by decide) hnot

theorem strcmp_eq_lt_iff :
    strcmp s t = .lt ↔ (cstr s).map UInt8.toNat < (cstr t).map UInt8.toNat := by
  unfold strcmp cmp cmpUsing
  split
  · rename_i hlt
    exact iff_of_true rfl hlt
  · rename_i hnot
    refine iff_of_false ?_ hnot
    split
    · decide
    · decide

theorem strcmp_eq_eq_iff :
    strcmp s t = .eq ↔ (cstr s).map UInt8.toNat = (cstr t).map UInt8.toNat := by
  have hlt := strcmp_eq_lt_iff (s := s) (t := t)
  have hgt := strcmp_eq_gt_iff (s := s) (t := t)
  cases hcmp : strcmp s t with
  | lt =>
    refine iff_of_false (by decide) ?_
    exact (hlt.mp hcmp).ne
  | gt =>
    refine iff_of_false (by decide) ?_
    exact (hgt.mp hcmp).ne'
  | eq =>
    rw [hcmp] at hlt hgt
    refine iff_of_true rfl ?_
    have hle := not_lt.mp (mt hgt.mpr (by decide))
    have hge := not_lt.mp (mt hlt.mpr (by decide))
    exact le_antisymm hle hge

/-- What `nic_cmp` compares. -/
def key (bigEndian : Bool) (nic : Nic) : List Nat :=
  (cstr (nic.address.bytes bigEndian)).map UInt8.toNat

variable {bigEndian : Bool} {niclist : List Nic}

theorem qsort_iff {sorted : List Nic} :
    Qsort bigEndian niclist sorted ↔ Arranged (key bigEndian) niclist sorted := by
  have hle : ∀ a b : Nic, nicCmp bigEndian a b ≠ .gt ↔ key bigEndian a ≤ key bigEndian b := by
    intro a b
    unfold nicCmp
    rw [Ne, strcmp_eq_gt_iff, not_lt]
    rfl
  constructor
  · rintro ⟨hperm, hordered⟩
    exact ⟨hperm, hordered.imp (fun h => (hle _ _).mp h)⟩
  · rintro ⟨hperm, hsorted⟩
    exact ⟨hperm, hsorted.imp (fun h => (hle _ _).mpr h)⟩

def ethName (ndx : Nat) : List UInt8 := (strlcpy (ascii "eth" ++ decimal ndx) ifNamesize).1

variable {devPath : List UInt8} {nic : Nic}

theorem fillIface_idxOf (hmem : nic ∈ niclist) (hpath : strcmp nic.path devPath = .eq)
    (hdistinct : ∀ a ∈ niclist, strcmp a.path devPath = .eq → a = nic) (ndx : Nat) :
    fillIface devPath niclist ndx = ethName (ndx + niclist.idxOf nic) := by
  induction niclist generalizing ndx with
  | nil => exact absurd hmem not_mem_nil
  | cons a niclist ih =>
    unfold fillIface
    by_cases heq : a = nic
    · subst heq
      rw [if_pos hpath, idxOf_cons_self]
      rfl
    · have hne : ¬ strcmp a.path devPath = .eq := by
        intro h
        exact heq (hdistinct a mem_cons_self h)
      have htail : nic ∈ niclist := by
        rcases mem_cons.mp hmem with rfl | htail
        · exact absurd rfl heq
        · exact htail
      rw [if_neg hne, ih htail (fun b hb => hdistinct b (mem_cons_of_mem _ hb)),
        idxOf_cons_ne _ heq]
      congr 1
      omega

/-! ## The name -/

/-- How many NIC paths are smaller. -/
def rank (paths : List (List UInt8)) (devPath : List UInt8) : Nat :=
  paths.countP (fun path => strcmp path devPath = .lt)

theorem ethName_inj : ∀ n < 11, ∀ m < 11, ethName n = ethName m → n = m := by
  decide +kernel

/-- No other pointer compares equal to the one of the boot device, and as many pointers
compare less as there are smaller paths. -/
def PointersAgree (bigEndian : Bool) (niclist : List Nic) (devPath : List UInt8) : Prop :=
  ∀ nic ∈ niclist, strcmp nic.path devPath = .eq →
    (∀ other ∈ niclist, other ≠ nic → nicCmp bigEndian other nic ≠ .eq) ∧
      niclist.countP (fun other => nicCmp bigEndian other nic = .lt) =
        rank (niclist.map Nic.path) devPath

instance paths_symm : Std.Symm (fun a b : Nic => strcmp a.path b.path ≠ .eq) where
  symm := by
    intro a b h hback
    exact h (strcmp_eq_eq_iff.mpr (strcmp_eq_eq_iff.mp hback).symm)

/-- Two elements with the path of the boot device are one. -/
theorem eq_of_devPath (hdistinct : niclist.Pairwise (fun a b => strcmp a.path b.path ≠ .eq))
    {a b : Nic} (ha : a ∈ niclist) (hb : b ∈ niclist) (hapath : strcmp a.path devPath = .eq)
    (hbpath : strcmp b.path devPath = .eq) : a = b := by
  by_contra hne
  have hsame : strcmp a.path b.path = .eq :=
    strcmp_eq_eq_iff.mpr ((strcmp_eq_eq_iff.mp hapath).trans (strcmp_eq_eq_iff.mp hbpath).symm)
  exact hdistinct.forall ha hb hne hsame

/-- The boot device is found at its place in the sorted list. -/
theorem fillContext_sorted {sorted : List Nic} (hsort : Qsort bigEndian niclist sorted)
    (hmem : nic ∈ niclist) (hpath : strcmp nic.path devPath = .eq)
    (hdistinct : niclist.Pairwise (fun a b => strcmp a.path b.path ≠ .eq)) :
    fillContext sorted devPath = ethName (sorted.idxOf nic) := by
  have h := fillIface_idxOf (hsort.perm.mem_iff.mpr hmem) hpath
    (fun a ha haeq => eq_of_devPath hdistinct (hsort.perm.mem_iff.mp ha) hmem haeq hpath) 0
  rw [Nat.zero_add] at h
  exact h

theorem nodup_of_paths (hdistinct : niclist.Pairwise (fun a b => strcmp a.path b.path ≠ .eq)) :
    niclist.Nodup := by
  refine hdistinct.imp ?_
  rintro a b hne rfl
  exact hne (strcmp_eq_eq_iff.mpr rfl)

/-- Over a list with distinct paths, every sort gives the name exactly if the pointers
agree with the paths. -/
theorem sorted_name_iff (hfew : niclist.length ≤ ofwdevMax) (hmem : nic ∈ niclist)
    (hpath : strcmp nic.path devPath = .eq)
    (hdistinct : niclist.Pairwise (fun a b => strcmp a.path b.path ≠ .eq)) :
    (∀ sorted, Qsort bigEndian niclist sorted →
        fillContext sorted devPath = ethName (rank (niclist.map Nic.path) devPath)) ↔
      (∀ other ∈ niclist, other ≠ nic → nicCmp bigEndian other nic ≠ .eq) ∧
        niclist.countP (fun other => nicCmp bigEndian other nic = .lt) =
          rank (niclist.map Nic.path) devPath := by
  have hrank : rank (niclist.map Nic.path) devPath < 11 := by
    have hle := countP_le_length (p := fun path => strcmp path devPath = .lt)
      (l := niclist.map Nic.path)
    rw [length_map] at hle
    have hten : ofwdevMax = 10 := rfl
    unfold rank
    omega
  have hless : ∀ other : Nic, decide (nicCmp bigEndian other nic = .lt) = true ↔
      key bigEndian other < key bigEndian nic := by
    intro other
    rw [decide_eq_true_iff]
    exact strcmp_eq_lt_iff
  have hplaces := Ranking.forall_idxOf_iff (nodup_of_paths hdistinct) hmem hless
    (rank (niclist.map Nic.path) devPath)
  have hown : (∀ other ∈ niclist, other ≠ nic → key bigEndian other ≠ key bigEndian nic) ↔
      ∀ other ∈ niclist, other ≠ nic → nicCmp bigEndian other nic ≠ .eq :=
    forall₃_congr (fun _ _ _ => not_congr strcmp_eq_eq_iff.symm)
  rw [hown] at hplaces
  rw [← hplaces]
  apply forall_congr'
  intro sorted
  rw [qsort_iff]
  apply imp_congr_right
  intro harranged
  rw [fillContext_sorted (qsort_iff.mpr harranged) hmem hpath hdistinct]
  constructor
  · intro hname
    apply ethName_inj _ _ _ hrank hname
    have hplace := idxOf_lt_length_iff.mpr (harranged.perm.mem_iff.mpr hmem)
    rw [harranged.perm.length_eq] at hplace
    have hten : ofwdevMax = 10 := rfl
    omega
  · intro hplace
    rw [hplace]

/-- The boot device is named after the rank of its path, however elements that compare
equal are ordered, exactly if the addresses of the paths happen to agree with them. -/
theorem iface_name_iff (bigEndian : Bool) (devtreeOffset : Nat) (malloc : Nat → Address)
    (visits : List Visit) (devPath : List UInt8)
    (hfew : (nicPaths devtreeOffset visits).length ≤ ofwdevMax)
    (hdistinct : (nicPaths devtreeOffset visits).Pairwise (fun s t => strcmp s t ≠ .eq))
    (hdev : ∃ path ∈ nicPaths devtreeOffset visits, strcmp path devPath = .eq) :
    (∀ sorted, Qsort bigEndian (walk devtreeOffset malloc visits) sorted →
        fillContext sorted devPath = ethName (rank (nicPaths devtreeOffset visits) devPath)) ↔
      PointersAgree bigEndian (walk devtreeOffset malloc visits) devPath := by
  have hpaths := walk_paths devtreeOffset malloc visits hfew
  rw [← hpaths] at hfew hdistinct hdev ⊢
  rw [length_map] at hfew
  rw [pairwise_map] at hdistinct
  obtain ⟨path, hpath, heq⟩ := hdev
  obtain ⟨nic, hmem, rfl⟩ := mem_map.mp hpath
  rw [sorted_name_iff hfew hmem heq hdistinct]
  constructor
  · intro hagree other hother hother_eq
    have hnic := eq_of_devPath hdistinct hother hmem hother_eq heq
    rw [hnic]
    exact hagree
  · intro hagree
    exact hagree nic hmem heq

def heapAddress (n : Nat) : Address := ⟨n % 2 ^ 56, Nat.mod_lt n (by decide)⟩

/-- A directory right below the top of the tree. -/
def visitOf (name : String) : Visit := ⟨ascii name, 1, true⟩

/-- One NIC is named right. -/
theorem iface_name_single :
    fillContext [⟨heapAddress 0x10010, ascii "/ethernet@1"⟩] (ascii "/ethernet@1") =
      ethName (rank (nicPaths 0 [visitOf "/ethernet@1"]) (ascii "/ethernet@1")) := by
  have hsorted : Qsort true (walk 0 (fun _ => heapAddress 0x10010) [visitOf "/ethernet@1"])
      [⟨heapAddress 0x10010, ascii "/ethernet@1"⟩] := by
    have hwalk : walk 0 (fun _ => heapAddress 0x10010) [visitOf "/ethernet@1"] =
        [⟨heapAddress 0x10010, ascii "/ethernet@1"⟩] := by
      decide +kernel
    rw [hwalk]
    exact ⟨List.Perm.refl _, pairwise_singleton _ _⟩
  refine (iface_name_iff true 0 (fun _ => heapAddress 0x10010) [visitOf "/ethernet@1"]
    (ascii "/ethernet@1") (by decide +kernel) (by decide +kernel)
    ⟨ascii "/ethernet@1", by decide +kernel, by decide +kernel⟩).mpr ?_ _ hsorted
  unfold PointersAgree
  decide +kernel

/-- Two NICs that the walk finds in reverse order, at increasing addresses: the sort leaves
them as they are, and the second is taken for the first. -/
theorem sorted_by_address :
    Qsort false
        (walk 0 (fun i => heapAddress (0x10010 + 0x20 * i))
          [visitOf "/ethernet@1", visitOf "/ethernet@0"])
        [⟨heapAddress 0x10010, ascii "/ethernet@1"⟩, ⟨heapAddress 0x10030, ascii "/ethernet@0"⟩] ∧
      fillContext [⟨heapAddress 0x10010, ascii "/ethernet@1"⟩,
        ⟨heapAddress 0x10030, ascii "/ethernet@0"⟩] (ascii "/ethernet@1") = ascii "eth0" ∧
      rank (nicPaths 0 [visitOf "/ethernet@1", visitOf "/ethernet@0"]) (ascii "/ethernet@1") = 1 := by
  refine ⟨⟨?_, ?_⟩, ?_, ?_⟩
  · have hwalk : walk 0 (fun i => heapAddress (0x10010 + 0x20 * i))
        [visitOf "/ethernet@1", visitOf "/ethernet@0"] =
        [⟨heapAddress 0x10010, ascii "/ethernet@1"⟩, ⟨heapAddress 0x10030, ascii "/ethernet@0"⟩] := by
      decide +kernel
    rw [hwalk]
  · decide +kernel
  · decide +kernel
  · decide +kernel

end PpcNics
