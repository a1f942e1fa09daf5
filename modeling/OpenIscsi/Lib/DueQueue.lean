import Mathlib

/-!
# Lists in the order of a key

A queue of deadlines is a list in nondecreasing order of a key. Inserting puts
an entry behind those with the same key, and the entries up to a bound are a
first part of the list.
-/

namespace DueQueue

open List

variable {A : Type}

/-- The insertion stops at the first entry the relation puts behind. -/
theorem orderedInsert_of_find {r : A → A → Prop} [DecidableRel r] (a b : A) (l : List A)
    (h : l.find? (fun b => r a b) = some b) :
    ∃ xs ys, l = xs ++ b :: ys ∧ l.orderedInsert r a = xs ++ a :: b :: ys := by
  induction l with
  | nil => simp at h
  | cons c l ih =>
    by_cases hc : r a c
    · simp only [find?_cons, hc, decide_true, Option.some.injEq] at h
      subst h
      exact ⟨[], l, rfl, by rw [orderedInsert_cons, if_pos hc]; rfl⟩
    · simp only [find?_cons, hc, decide_false] at h
      obtain ⟨xs, ys, h1, h2⟩ := ih h
      exact ⟨c :: xs, ys, by rw [h1]; rfl, by rw [orderedInsert_cons, if_neg hc, h2]; rfl⟩

theorem orderedInsert_of_find_none {r : A → A → Prop} [DecidableRel r] (a : A) (l : List A)
    (h : l.find? (fun b => r a b) = none) : l.orderedInsert r a = l ++ [a] := by
  induction l with
  | nil => rfl
  | cons c l ih =>
    have hc : ¬ r a c := by simpa using find?_eq_none.mp h c (by simp)
    simp only [find?_cons, hc, decide_false] at h
    rw [orderedInsert_cons, if_neg hc, ih h]
    rfl

theorem mem_insertion {r : A → A → Prop} [DecidableRel r] {a b : A} {l : List A} :
    b ∈ l.orderedInsert r a ↔ b = a ∨ b ∈ l := by
  rw [(perm_orderedInsert r a l).mem_iff, mem_cons]

/-- Inserting either puts the new entry first or leaves the first entry. -/
theorem head?_orderedInsert (r : A → A → Prop) [DecidableRel r] (a : A) (l : List A) :
    (l.orderedInsert r a).head? = some a ∨ (l.orderedInsert r a).head? = l.head? := by
  cases l with
  | nil => exact .inl rfl
  | cons c l =>
    rw [orderedInsert_cons]
    split
    · exact .inl rfl
    · exact .inr rfl

/-- The order by keys survives the insertion behind equal keys. -/
theorem orderedInsert_sorted (key : A → Nat) (a : A) (l : List A)
    (h : l.Pairwise (fun b c => key b ≤ key c)) :
    (l.orderedInsert (fun b c => key b < key c) a).Pairwise (fun b c => key b ≤ key c) := by
  induction l with
  | nil => simp
  | cons c l ih =>
    obtain ⟨hc, hl⟩ := pairwise_cons.mp h
    rw [orderedInsert_cons]
    split
    · rename_i hlt
      refine pairwise_cons.mpr ⟨fun d hd => ?_, h⟩
      rcases mem_cons.mp hd with rfl | hd
      · omega
      · have := hc d hd
        omega
    · rename_i hle
      refine pairwise_cons.mpr ⟨fun d hd => ?_, ih hl⟩
      rcases mem_insertion.mp hd with rfl | hd
      · omega
      · exact hc d hd

/-- In an ordered list, what is left of the entries up to a bound is beyond it. -/
theorem lt_of_mem_dropWhile (key : A → Nat) (bound : Nat) (l : List A)
    (h : l.Pairwise (fun b c => key b ≤ key c)) :
    ∀ b ∈ l.dropWhile (fun b => key b ≤ bound), bound < key b := by
  induction l with
  | nil => simp
  | cons c l ih =>
    obtain ⟨hc, hl⟩ := pairwise_cons.mp h
    by_cases hb : key c ≤ bound
    · simpa [dropWhile_cons, hb] using ih hl
    · intro b hmem
      rw [dropWhile_cons, if_neg (by simpa using hb)] at hmem
      rcases mem_cons.mp hmem with rfl | hmem
      · omega
      · have := hc b hmem
        omega

end DueQueue
