import Mathlib

/-!
# Slots that are handed out and given back

A pool marks the slots that are out. Its history is a list of uses, and replaying it
for one slot tells a slot that is handed out twice, or given back twice, from one
whose uses alternate. A ledger ties the marks and the history to the list of owners.
-/

namespace SlotPool

variable {α : Type*} [DecidableEq α]

inductive Use (α : Type*) where
  | taken (slot : α)
  | returned (slot : α)
  deriving DecidableEq, Repr

/-- The slot is out after one more use; nothing if it already was, or never was. -/
def replayUse (slot : α) : Option Bool → Use α → Option Bool
  | some false, .taken t => some (t = slot)
  | some true, .taken t => if t = slot then none else some true
  | some true, .returned t => some (t ≠ slot)
  | some false, .returned t => if t = slot then none else some false
  | none, _ => none

/-- Whether a slot is out after a history in which its uses alternate. -/
def replay (slot : α) (uses : List (Use α)) : Option Bool := uses.foldl (replayUse slot) (some false)

@[simp] theorem replay_nil (slot : α) : replay slot [] = some false := rfl

theorem replay_snoc (slot : α) (uses : List (Use α)) (use : Use α) :
    replay slot (uses ++ [use]) = replayUse slot (replay slot uses) use := by
  rw [replay, List.foldl_append]
  rfl

/-- The marks, the owners and the history agree. -/
structure Ledger (out : α → Bool) (owners : List α) (uses : List (Use α)) : Prop where
  nodup : owners.Nodup
  out_iff : ∀ slot, out slot = true ↔ slot ∈ owners
  replays : ∀ slot, replay slot uses = some (out slot)

theorem Ledger.empty : Ledger (fun _ : α => false) [] [] where
  nodup := List.nodup_nil
  out_iff := by simp
  replays := by simp

variable {uses : List (Use α)} {owners : List α} {slot : α} {out : α → Bool}

theorem Ledger.out_eq (h : Ledger out owners uses) (hnot : slot ∉ owners) : out slot = false := by
  apply Bool.eq_false_of_not_eq_true
  intro hout
  exact hnot ((h.out_iff slot).mp hout)

/-- The order of the owners does not matter. -/
theorem Ledger.perm {owners' : List α} (h : Ledger out owners uses) (hperm : owners.Perm owners') :
    Ledger out owners' uses where
  nodup := hperm.nodup_iff.mp h.nodup
  out_iff := fun slot => (h.out_iff slot).trans hperm.mem_iff
  replays := h.replays

/-- A slot that is not out may be handed out. -/
theorem Ledger.take (h : Ledger out owners uses) (hfree : out slot = false) :
    Ledger (Function.update out slot true) (owners ++ [slot]) (uses ++ [.taken slot]) := by
  have hnew : slot ∉ owners := by
    intro hmem
    rw [(h.out_iff slot).mpr hmem] at hfree
    cases hfree
  refine ⟨?_, ?_, ?_⟩
  · rw [List.nodup_append]
    refine ⟨h.nodup, List.nodup_singleton slot, ?_⟩
    intro a ha b hb hab
    rw [List.mem_singleton] at hb
    exact hnew (hb ▸ hab ▸ ha)
  · intro t
    by_cases ht : t = slot
    · subst ht
      simp
    · simp [h.out_iff, ht]
  · intro t
    rw [replay_snoc, h.replays]
    by_cases ht : t = slot
    · subst ht
      simp [hfree, replayUse]
    · have ht' : slot ≠ t := fun heq => ht heq.symm
      cases hout : out t <;> simp [replayUse, Function.update_of_ne ht, hout, ht']

/-- An owner may give its slot back. -/
theorem Ledger.give {rest : List α} (h : Ledger out (slot :: rest) uses) :
    Ledger (Function.update out slot false) rest (uses ++ [.returned slot]) := by
  have hnodup := List.nodup_cons.mp h.nodup
  have hout : out slot = true := (h.out_iff slot).mpr List.mem_cons_self
  refine ⟨hnodup.2, ?_, ?_⟩
  · intro t
    by_cases ht : t = slot
    · subst ht
      simp [hnodup.1]
    · rw [Function.update_of_ne ht, h.out_iff]
      simp [ht]
  · intro t
    rw [replay_snoc, h.replays]
    by_cases ht : t = slot
    · subst ht
      simp [hout, replayUse]
    · have ht' : slot ≠ t := fun heq => ht heq.symm
      cases htout : out t <;> simp [replayUse, Function.update_of_ne ht, htout, ht']

end SlotPool
