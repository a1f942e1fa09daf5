import Mathlib

/-!
# Lists linked by a pointer

A pointer is an optional node and every node has one link. A segment leads from a
pointer through its nodes to another pointer; a list is a segment that ends at none.
-/

namespace LinkedList

open List

variable {α : Type*} {next next' : α → Option α}

/-- Following the links from `p` visits these nodes and arrives at `q`. -/
def Seg (next : α → Option α) : Option α → List α → Option α → Prop
  | p, [], q => p = q
  | p, a :: l, q => p = some a ∧ Seg next (next a) l q

/-- The nodes of a loop that follows the links, for at most this many turns. -/
def follow (next : α → Option α) : Nat → Option α → List α
  | _, none => []
  | 0, some _ => []
  | fuel + 1, some a => a :: follow next fuel (next a)

variable {l : List α} {p q : Option α}

theorem seg_append {r : List α} : Seg next p (l ++ r) q ↔ ∃ m, Seg next p l m ∧ Seg next m r q := by
  induction l generalizing p with
  | nil => simp [Seg]
  | cons a l ih => simp only [cons_append, Seg, ih, and_assoc, exists_and_left]

/-- Where the segment passes a node. -/
theorem seg_middle {r : List α} {a : α} :
    Seg next p (l ++ a :: r) q ↔ Seg next p l (some a) ∧ Seg next (next a) r q := by
  rw [seg_append]
  constructor
  · rintro ⟨m, hl, rfl, hr⟩
    exact ⟨hl, hr⟩
  · rintro ⟨hl, hr⟩
    exact ⟨some a, hl, rfl, hr⟩

theorem Seg.congr (h : Seg next p l q) (hsame : ∀ a ∈ l, next' a = next a) : Seg next' p l q := by
  induction l generalizing p with
  | nil => exact h
  | cons a l ih =>
    refine ⟨h.1, ?_⟩
    rw [hsame a mem_cons_self]
    exact ih h.2 (fun b hb => hsame b (mem_cons_of_mem a hb))

theorem Seg.follow_eq (h : Seg next p l none) {fuel : Nat} (hfuel : l.length ≤ fuel) :
    follow next fuel p = l := by
  induction l generalizing p fuel with
  | nil =>
    obtain rfl : p = none := h
    cases fuel <;> rfl
  | cons a l ih =>
    obtain ⟨rfl, hl⟩ := h
    cases fuel with
    | zero => exact absurd hfuel (Nat.not_succ_le_zero _)
    | succ fuel => rw [follow, ih hl (Nat.le_of_succ_le_succ hfuel)]

/-- Let a segment arrive somewhere else, by the link of its last node or, where it has no
node, by the pointer it starts from. -/
theorem Seg.retarget [DecidableEq α] (h : Seg next p l q) (hnodup : l.Nodup) (r : Option α) :
    Seg (fun c => if l.getLast? = some c then r else next c) (if l = [] then r else p) l r := by
  rcases eq_nil_or_concat l with rfl | ⟨front, b, rfl⟩
  · rfl
  · rw [concat_eq_append] at h hnodup ⊢
    have hb : b ∉ front := by
      intro hmem
      exact (nodup_append.mp hnodup).2.2 b hmem b (mem_singleton_self b) rfl
    rw [if_neg (append_ne_nil_of_right_ne_nil front (cons_ne_nil b [])), seg_middle]
    rw [seg_middle] at h
    simp only [getLast?_append, getLast?_singleton, Option.some_or]
    refine ⟨h.1.congr ?_, if_pos trivial⟩
    intro a ha
    exact if_neg (fun hab : some b = some a => hb (Option.some.inj hab ▸ ha))

/-- The first node that a loop stops at, with the node before it. -/
def locate (stop : α → Bool) : Option α → List α → Option (Option α × α)
  | _, [] => none
  | prev, a :: l => if stop a then some (prev, a) else locate stop (some a) l

theorem locate_none {stop : α → Bool} {prev : Option α} (h : locate stop prev l = none) :
    ∀ a ∈ l, stop a = false := by
  induction l generalizing prev with
  | nil => exact fun a ha => absurd ha not_mem_nil
  | cons b l ih =>
    rw [locate] at h
    cases hb : stop b with
    | true =>
      rw [hb, if_pos rfl] at h
      cases h
    | false =>
      rw [hb, if_neg Bool.false_ne_true] at h
      exact forall_mem_cons.mpr ⟨hb, ih h⟩

theorem locate_some {stop : α → Bool} {prev : Option α} {r : Option α × α}
    (h : locate stop prev l = some r) :
    ∃ front back, l = front ++ r.2 :: back ∧ (∀ a ∈ front, stop a = false) ∧ stop r.2 = true ∧
      r.1 = front.getLast?.or prev := by
  induction l generalizing prev with
  | nil => cases h
  | cons b l ih =>
    rw [locate] at h
    cases hb : stop b with
    | true =>
      rw [hb, if_pos rfl] at h
      cases h
      exact ⟨[], l, rfl, fun a ha => absurd ha not_mem_nil, hb, rfl⟩
    | false =>
      rw [hb, if_neg Bool.false_ne_true] at h
      obtain ⟨front, back, rfl, hfront, hstop, hprev⟩ := ih h
      refine ⟨b :: front, back, rfl, forall_mem_cons.mpr ⟨hb, hfront⟩, hstop, ?_⟩
      rw [hprev, getLast?_cons]
      cases front.getLast? <;> rfl

end LinkedList
