import Mathlib.Logic.Basic

/-! # Programs that call their environment

A program makes calls and goes on with their answers. It can be run against a handler with a
state, or looked at under every answer its environment may give. -/

namespace Interaction

inductive Prog (C : Type) (R : C → Type) (α : Type) where
  | done (a : α)
  | call (c : C) (k : R c → Prog C R α)

namespace Prog

variable {C : Type} {R : C → Type} {α β σ : Type}

def bind : Prog C R α → (α → Prog C R β) → Prog C R β
  | done a, f => f a
  | call c k, f => call c fun r => (k r).bind f

instance : Monad (Prog C R) where
  pure := done
  bind := bind

def ask (c : C) : Prog C R (R c) := call c done

def run (handle : (c : C) → σ → R c × σ) : Prog C R α → σ → α × σ
  | done a, s => (a, s)
  | call c k, s => (k (handle c s).1).run handle (handle c s).2

/-- Whatever the answers are, the program ends in a state with `Q`; `moves` says which answers a
call can have in a state and what state they lead to. -/
def Ends (moves : σ → (c : C) → R c → Option σ) (Q : α → σ → Prop) : Prog C R α → σ → Prop
  | done a, s => Q a s
  | call c k, s => ∀ r s', moves s c r = some s' → (k r).Ends moves Q s'

/-- The run with the chosen answers, if they can be had. -/
def follow (moves : σ → (c : C) → R c → Option σ) (choose : (c : C) → σ → R c) :
    Prog C R α → σ → Option (α × σ)
  | done a, s => some (a, s)
  | call c k, s => (moves s c (choose c s)).bind ((k (choose c s)).follow moves choose)

section Run

variable {handle : (c : C) → σ → R c × σ}

@[simp] theorem run_pure (a : α) (s : σ) : (pure a : Prog C R α).run handle s = (a, s) := rfl

@[simp] theorem run_ask (c : C) (s : σ) : (ask c : Prog C R (R c)).run handle s = handle c s := rfl

@[simp] theorem run_bind (p : Prog C R α) (f : α → Prog C R β) (s : σ) :
    (p >>= f).run handle s = (f (p.run handle s).1).run handle (p.run handle s).2 := by
  change (p.bind f).run handle s = _
  induction p generalizing s with
  | done a => rfl
  | call c k ih => exact ih _ _

end Run

section Ends

variable {moves : σ → (c : C) → R c → Option σ} {s : σ}

variable {Q : α → σ → Prop}

@[simp] theorem ends_pure (a : α) :
    (pure a : Prog C R α).Ends moves Q s ↔ Q a s := Iff.rfl

@[simp] theorem ends_ask (c : C) {Q : R c → σ → Prop} :
    (ask c : Prog C R (R c)).Ends moves Q s ↔ ∀ r s', moves s c r = some s' → Q r s' := Iff.rfl

@[simp] theorem ends_bind (p : Prog C R α) (f : α → Prog C R β) {Q : β → σ → Prop} :
    (p >>= f).Ends moves Q s ↔ p.Ends moves (fun a s => (f a).Ends moves Q s) s := by
  change (p.bind f).Ends moves Q s ↔ _
  induction p generalizing s with
  | done a => exact Iff.rfl
  | call c k ih =>
    exact forall_congr' fun r => forall_congr' fun s' => imp_congr Iff.rfl (ih r)

variable {p : Prog C R α}

theorem ends_mono {Q' : α → σ → Prop} (h : p.Ends moves Q s) (hQ : ∀ a s, Q a s → Q' a s) :
    p.Ends moves Q' s := by
  induction p generalizing s with
  | done a => exact hQ a s h
  | call c k ih => exact fun r s' hs => ih r (h r s' hs)

/-- A sequence ends well if the first part ends where the second part goes on well. -/
theorem ends_then {f : α → Prog C R β} {Q' : β → σ → Prop} (h : p.Ends moves Q s)
    (hf : ∀ a s, Q a s → (f a).Ends moves Q' s) :
    (p >>= f).Ends moves Q' s :=
  (ends_bind p f).2 (ends_mono h hf)

theorem ends_and {Q' : α → σ → Prop} (h : p.Ends moves Q s) (h' : p.Ends moves Q' s) :
    p.Ends moves (fun a s => Q a s ∧ Q' a s) s := by
  induction p generalizing s with
  | done a => exact ⟨h, h'⟩
  | call c k ih => exact fun r s' hs => ih r (h r s' hs) (h' r s' hs)

/-- What holds of a part of the state whatever happens holds of it in the whole. -/
theorem ends_part {τ : Type} {moves' : τ → (c : C) → R c → Option τ} (part : σ → τ)
    (hpart : ∀ s c r s', moves s c r = some s' → moves' (part s) c r = some (part s'))
    {Q : α → τ → Prop} (h : p.Ends moves' Q (part s)) :
    p.Ends moves (fun a s => Q a (part s)) s := by
  induction p generalizing s with
  | done a => exact h
  | call c k ih => exact fun r s' hs => ih r (h r (part s') (hpart s c r s' hs))

end Ends

end Prog

end Interaction
