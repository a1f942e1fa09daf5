import Mathlib

/-!
# Places in a sorted list

Sorting by a key fixes the place of an element only when no other element has its key.
The lists a sort may return are all the arrangements in which the keys do not decrease.
-/

namespace Ranking

open List

variable {α κ : Type*} [LinearOrder κ]

structure Arranged (key : α → κ) (l l' : List α) : Prop where
  perm : l'.Perm l
  sorted : l'.Pairwise (fun a b => key a ≤ key b)

theorem exists_arranged (key : α → κ) (l : List α) : ∃ l', Arranged key l l' := by
  have htotal : Std.Total (fun a b => key a ≤ key b) := ⟨fun a b => le_total (key a) (key b)⟩
  have htrans : IsTrans α (fun a b => key a ≤ key b) := ⟨fun _ _ _ => le_trans⟩
  exact ⟨l.insertionSort (fun a b => key a ≤ key b), perm_insertionSort _ l,
    pairwise_insertionSort _ l⟩

variable [DecidableEq α]

variable {l : List α} {p : α} {key : α → κ}

/-- An element whose key is its own stands behind the smaller ones. -/
theorem Arranged.idxOf_eq {l' : List α} (h : Arranged key l l') (hnodup : l.Nodup) (hp : p ∈ l)
    {less : α → Bool} (hless : ∀ r, less r = true ↔ key r < key p)
    (hown : ∀ r ∈ l, r ≠ p → key r ≠ key p) : l'.idxOf p = l.countP less := by
  obtain ⟨s, t, rfl⟩ := append_of_mem (h.perm.mem_iff.mpr hp)
  have hnodup' := h.perm.nodup_iff.mpr hnodup
  rw [nodup_middle, nodup_cons, mem_append, not_or] at hnodup'
  have hsorted := pairwise_append.mp h.sorted
  have hfront : s.countP less = s.length := by
    rw [countP_eq_length]
    intro r hr
    have hle := hsorted.2.2 r hr p mem_cons_self
    have hmem : r ∈ l := h.perm.mem_iff.mp (mem_append_left _ hr)
    have hne : r ≠ p := fun heq => hnodup'.1.1 (heq ▸ hr)
    exact (hless r).mpr (lt_of_le_of_ne hle (hown r hmem hne))
  have hback : t.countP less = 0 := by
    rw [countP_eq_zero]
    intro r hr
    have hle := (pairwise_cons.mp hsorted.2.1).1 r hr
    exact fun h => not_lt_of_ge hle ((hless r).mp h)
  have hself : ¬ less p = true := fun h => lt_irrefl _ ((hless p).mp h)
  rw [← h.perm.countP_eq, countP_append, countP_cons, hfront, hback, idxOf_append,
    if_neg hnodup'.1.1, if_neg hself]
  simp

/-- Two elements with one key may change places. -/
theorem Arranged.swap {l' : List α} (h : Arranged key l l') (hnodup : l.Nodup) {r : α} (hp : p ∈ l)
    (hr : r ∈ l) (hkey : key r = key p) :
    Arranged key l (l'.map (Equiv.swap p r)) where
  perm := by
    have hnodup' : (l'.map (Equiv.swap p r)).Nodup :=
      (h.perm.nodup_iff.mpr hnodup).map (Equiv.swap p r).injective
    rw [perm_ext_iff_of_nodup hnodup' hnodup]
    have hswap : ∀ a ∈ l, Equiv.swap p r a ∈ l := by
      intro a ha
      by_cases hap : a = p
      · rw [hap, Equiv.swap_apply_left]
        exact hr
      · by_cases har : a = r
        · rw [har, Equiv.swap_apply_right]
          exact hp
        · rw [Equiv.swap_apply_of_ne_of_ne hap har]
          exact ha
    intro a
    rw [mem_map]
    constructor
    · rintro ⟨b, hb, rfl⟩
      exact hswap b (h.perm.mem_iff.mp hb)
    · intro ha
      exact ⟨Equiv.swap p r a, h.perm.mem_iff.mpr (hswap a ha), Equiv.swap_apply_self p r a⟩
  sorted := by
    have hsame : ∀ a, key (Equiv.swap p r a) = key a := by
      intro a
      by_cases hap : a = p
      · rw [hap, Equiv.swap_apply_left, hkey]
      · by_cases har : a = r
        · rw [har, Equiv.swap_apply_right, hkey]
        · rw [Equiv.swap_apply_of_ne_of_ne hap har]
    rw [pairwise_map]
    refine h.sorted.imp ?_
    intro a b hab
    rw [hsame a, hsame b]
    exact hab

theorem idxOf_map_swap (hnodup : l.Nodup) {r : α} (hr : r ∈ l) :
    (l.map (Equiv.swap p r)).idxOf p = l.idxOf r := by
  have hlt := idxOf_lt_length_iff.mpr hr
  have hlt' : l.idxOf r < (l.map (Equiv.swap p r)).length := by
    rw [length_map]
    exact hlt
  have hget : (l.map (Equiv.swap p r))[l.idxOf r] = p := by
    rw [getElem_map, getElem_idxOf hlt, Equiv.swap_apply_right]
  have hplace := (hnodup.map (Equiv.swap p r).injective).idxOf_getElem (l.idxOf r) hlt'
  rw [hget] at hplace
  exact hplace

/-- Every sort puts an element at one place exactly if its key is its own, and then the place
is the number of smaller keys. -/
theorem forall_idxOf_iff (hnodup : l.Nodup) (hp : p ∈ l) {less : α → Bool}
    (hless : ∀ r, less r = true ↔ key r < key p) (n : Nat) :
    (∀ l', Arranged key l l' → l'.idxOf p = n) ↔
      (∀ r ∈ l, r ≠ p → key r ≠ key p) ∧ l.countP less = n := by
  constructor
  · intro hall
    have hown : ∀ r ∈ l, r ≠ p → key r ≠ key p := by
      intro r hr hne hkey
      obtain ⟨l', h⟩ := exists_arranged key l
      have hr' := h.perm.mem_iff.mpr hr
      have hswapped := hall _ (h.swap hnodup hp hr hkey)
      rw [idxOf_map_swap (h.perm.nodup_iff.mpr hnodup) hr', ← hall l' h] at hswapped
      exact hne ((idxOf_inj hr').mp hswapped)
    obtain ⟨l', h⟩ := exists_arranged key l
    exact ⟨hown, by rw [← h.idxOf_eq hnodup hp hless hown]; exact hall l' h⟩
  · rintro ⟨hown, hcount⟩ l' h
    rw [h.idxOf_eq hnodup hp hless hown, hcount]

end Ranking
