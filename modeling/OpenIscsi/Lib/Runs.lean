import Mathlib

/-!
# Runs of a deterministic system

A system is a step function; a run is a list of events. Everything random or
chosen by an environment is part of the event. The rules below turn a lemma
about one step into a statement about all runs.
-/

namespace Runs

variable {σ τ ε : Type*}

/-- The state after a list of events. -/
def run (step : σ → ε → σ) (s : σ) (es : List ε) : σ := es.foldl step s

@[simp] theorem run_nil (step : σ → ε → σ) (s : σ) : run step s [] = s := rfl

@[simp] theorem run_cons (step : σ → ε → σ) (s : σ) (e : ε) (es : List ε) :
    run step s (e :: es) = run step (step s e) es := rfl

theorem run_append (step : σ → ε → σ) (s : σ) (es fs : List ε) :
    run step s (es ++ fs) = run step (run step s es) fs :=
  List.foldl_append

theorem run_snoc (step : σ → ε → σ) (s : σ) (es : List ε) (e : ε) :
    run step s (es ++ [e]) = step (run step s es) e := by
  rw [run_append]
  rfl

/-- A property of the history and the state that each step keeps holds after every run. -/
theorem run_induct (step : σ → ε → σ) (s : σ) (P : List ε → σ → Prop) (init : P [] s)
    (keep : ∀ es e, P es (run step s es) → P (es ++ [e]) (step (run step s es) e))
    (es : List ε) : P es (run step s es) := by
  induction es using List.reverseRecOn with
  | nil => exact init
  | append_singleton es e ih =>
    rw [run_snoc]
    exact keep es e ih

theorem run_invariant (step : σ → ε → σ) (I : σ → Prop) (keep : ∀ s e, I s → I (step s e))
    (s : σ) (init : I s) (es : List ε) : I (run step s es) :=
  run_induct step s (fun _ t => I t) init (fun _ e h => keep _ e h) es

/-- Every event of the run meets the condition in the state it is taken from. -/
def Guarded (step : σ → ε → σ) (G : σ → ε → Prop) : σ → List ε → Prop
  | _, [] => True
  | s, e :: es => G s e ∧ Guarded step G (step s e) es

variable {I : σ → Prop} {G : σ → ε → Prop} {step : σ → ε → σ}

theorem Guarded.run_invariant (keep : ∀ s e, I s → G s e → I (step s e)) {s : σ} {es : List ε}
    (init : I s) (hg : Guarded step G s es) : I (run step s es) := by
  induction es generalizing s with
  | nil => exact init
  | cons e es ih => exact ih (keep s e init hg.1) hg.2

/-- A property that a step brings about exactly from itself and the condition. -/
theorem run_iff_guarded (one : ∀ s e, I (step s e) ↔ I s ∧ G s e) (s : σ) (es : List ε) :
    I (run step s es) ↔ I s ∧ Guarded step G s es := by
  induction es generalizing s with
  | nil => exact (and_iff_left trivial).symm
  | cons e es ih =>
    rw [run_cons, ih, one, and_assoc]
    exact Iff.rfl

/-- Where a step keeps the property exactly under the condition, the property holds in every
state of a run exactly if every event meets the condition. -/
theorem guarded_iff (keep : ∀ s e, I s → (I (step s e) ↔ G s e)) {s : σ} (init : I s) (es : List ε) :
    (∀ n, I (run step s (es.take n))) ↔ Guarded step G s es := by
  induction es generalizing s with
  | nil =>
    refine iff_of_true (fun n => ?_) trivial
    rw [List.take_nil]
    exact init
  | cons e es ih =>
    constructor
    · intro h
      have hstep : I (step s e) := h 1
      exact ⟨(keep s e init).1 hstep, (ih hstep).1 fun n => h (n + 1)⟩
    · rintro ⟨he, hes⟩ n
      cases n with
      | zero => exact init
      | succ n => exact (ih ((keep s e init).2 he)).2 hes n

/-- Some event of the list, taken after the events before it, has the property. -/
def Met (P : List ε → ε → Prop) (es : List ε) : Prop :=
  ∃ before e after, es = before ++ e :: after ∧ P before e

theorem met_snoc {P : List ε → ε → Prop} {es : List ε} {e : ε} :
    Met P (es ++ [e]) ↔ Met P es ∨ P es e := by
  constructor
  · rintro ⟨before, x, after, heq, hx⟩
    rcases List.eq_nil_or_concat after with rfl | ⟨after, y, rfl⟩
    · obtain ⟨rfl, hxe⟩ := List.append_inj' heq rfl
      cases hxe
      exact .inr hx
    · rw [List.concat_eq_append, ← List.cons_append, ← List.append_assoc] at heq
      exact .inl ⟨before, x, after, List.append_inj_left' heq rfl, hx⟩
  · rintro (⟨before, x, after, rfl, hx⟩ | he)
    · exact ⟨before, x, after ++ [e], by simp, hx⟩
    · exact ⟨es, e, [], rfl, he⟩

/-- A fact that a step brings about exactly under a condition on the history records if the
condition was ever met. -/
theorem run_iff_met {P : List ε → ε → Prop} {s : σ} (init : ¬ I s)
    (one : ∀ es e, I (step (run step s es) e) ↔ I (run step s es) ∨ P es e) (es : List ε) :
    I (run step s es) ↔ Met P es := by
  induction es using List.reverseRecOn with
  | nil => exact iff_of_false init fun ⟨_, _, _, h, _⟩ => by simp at h
  | append_singleton es e ih => rw [run_snoc, one, ih, met_snoc]

end Runs
