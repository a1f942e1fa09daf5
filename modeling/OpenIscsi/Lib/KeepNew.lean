import Mathlib

/-!
# Appending what a list does not have yet

A list whose elements are compared by a function that need not be symmetric: a new
element is appended unless some element already there is the same as it, else it
is given back.
-/

namespace KeepNew

open List

variable {α : Type} (same : α → α → Bool)

/-- Some element of the list is the same as `a`. -/
def found (l : List α) (a : α) : Bool := l.any (fun b => same b a)

/-- No element is the same as a later one. -/
def Distinct (l : List α) : Prop := l.Pairwise (fun a b => same a b = false)

/-- The list and the elements given back so far. -/
structure Kept (α : Type) where
  list : List α
  freed : List α
  deriving DecidableEq, Repr

def keepOne (k : Kept α) (a : α) : Kept α :=
  if found same k.list a then { k with freed := k.freed ++ [a] }
  else { k with list := k.list ++ [a] }

def keepNew (k : Kept α) (new : List α) : Kept α := new.foldl (keepOne same) k

variable {same}

theorem found_iff {l : List α} {a : α} : found same l a = true ↔ ∃ b ∈ l, same b a = true := by
  unfold found
  rw [any_eq_true]

theorem found_append (l m : List α) (a : α) :
    found same (l ++ m) a = (found same l a || found same m a) := by
  unfold found
  rw [any_append]

theorem Distinct.append_new {l : List α} {a : α} (h : Distinct same l)
    (hnew : found same l a = false) : Distinct same (l ++ [a]) := by
  unfold Distinct
  rw [pairwise_append]
  refine ⟨h, pairwise_singleton _ _, fun b hb c hc => ?_⟩
  rw [mem_singleton.mp hc]
  by_contra hsame
  have hfound := found_iff.mpr ⟨b, hb, by simpa using hsame⟩
  rw [hnew] at hfound
  exact nomatch hfound

variable (same) in
/-- The list only grows, by new elements. -/
theorem keepNew_list (k : Kept α) (new : List α) :
    ∃ added, (keepNew same k new).list = k.list ++ added ∧ ∀ a ∈ added, a ∈ new := by
  induction new generalizing k with
  | nil => exact ⟨[], (append_nil _).symm, fun _ h => (nomatch h)⟩
  | cons a new ih =>
    obtain ⟨added, heq, hmem⟩ := ih (keepOne same k a)
    have hlater := fun b hb => mem_cons_of_mem a (hmem b hb)
    change ∃ added, (keepNew same (keepOne same k a) new).list = _ ∧ _
    rw [heq]
    unfold keepOne
    split
    · exact ⟨added, rfl, hlater⟩
    · refine ⟨a :: added, append_assoc _ _ _, fun b hb => ?_⟩
      cases mem_cons.mp hb with
      | inl hb => exact hb ▸ mem_cons_self
      | inr hb => exact hlater b hb

theorem keepNew_distinct (k : Kept α) (new : List α) (h : Distinct same k.list) :
    Distinct same (keepNew same k new).list := by
  induction new generalizing k with
  | nil => exact h
  | cons a new ih =>
    apply ih
    unfold keepOne
    split
    · exact h
    · rename_i hnew
      exact h.append_new (by simpa using hnew)

/-- Every new element is found afterwards. -/
theorem keepNew_found (hrefl : ∀ a, same a a = true) (k : Kept α) (new : List α) :
    ∀ a ∈ new, found same (keepNew same k new).list a = true := by
  induction new generalizing k with
  | nil => exact fun _ h => (nomatch h)
  | cons b new ih =>
    intro a ha
    cases mem_cons.mp ha with
    | inl heq =>
      obtain ⟨added, hlist, _⟩ := keepNew_list same (keepOne same k b) new
      have hone : found same (keepOne same k b).list b = true := by
        unfold keepOne
        split
        · assumption
        · exact found_iff.mpr ⟨b, mem_append_right _ mem_cons_self, hrefl b⟩
      change found same (keepNew same (keepOne same k b) new).list a = true
      rw [hlist, heq, found_append, hone, Bool.true_or]
    | inr hmem => exact ih (keepOne same k b) a hmem

variable (same) in
/-- Every element is on the list or given back, as often as it was there. -/
theorem keepNew_perm (k : Kept α) (new : List α) :
    ((keepNew same k new).list ++ (keepNew same k new).freed).Perm (k.list ++ k.freed ++ new) := by
  induction new generalizing k with
  | nil =>
    rw [append_nil]
    exact List.Perm.refl _
  | cons a new ih =>
    have hstep : ((keepOne same k a).list ++ (keepOne same k a).freed).Perm
        (k.list ++ k.freed ++ [a]) := by
      unfold keepOne
      split
      · rw [append_assoc]
      · dsimp only
        rw [append_assoc, append_assoc]
        exact List.Perm.append_left _ perm_append_comm
    have hrest := (ih (keepOne same k a)).trans (hstep.append_right new)
    rw [append_assoc _ [a] new] at hrest
    exact hrest

end KeepNew
