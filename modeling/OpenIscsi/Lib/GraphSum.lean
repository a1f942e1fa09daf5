import Mathlib

/-!
# Sums over all paths of an acyclic graph

A recursion that visits the successors of a node and adds up what it finds there
visits a shared node once for every path to it. On a graph without cycles it
ends, and its result is a sum over paths.
-/

namespace GraphSum

open List

variable {α M N : Type} [AddCommMonoid M] [AddCommMonoid N]

variable (f : α → Option M) (as : List α)

section Value

variable {succ : α → List α} (hwf : WellFounded (fun b a => b ∈ succ a))

/-- The sum of the weights over all paths from a node. -/
noncomputable def value (w : α → M) : α → M :=
  hwf.fix (fun a rest => w a + ((succ a).attach.map (fun b => rest b.1 b.2)).sum)

end Value

end GraphSum
