import Mathlib.Logic.Relation

/-!
# Transition systems

A transition system is a set of initial states and a step relation.  An invariant
is what the initial states have and every step keeps.
-/

namespace VgiRpc.Library

structure TransitionSystem (σ : Type) where
  initial : σ → Prop
  step : σ → σ → Prop

namespace TransitionSystem

variable {σ : Type} {system : TransitionSystem σ}

inductive Reachable (system : TransitionSystem σ) : σ → Prop where
  | start {state : σ} : system.initial state → Reachable system state
  | next {state after : σ} : Reachable system state → system.step state after →
      Reachable system after

structure Invariant (system : TransitionSystem σ) (holds : σ → Prop) : Prop where
  initial : ∀ state, system.initial state → holds state
  step : ∀ state after, holds state → system.step state after → holds after

theorem Invariant.reachable {holds : σ → Prop} (invariant : system.Invariant holds) {state : σ}
    (reachable : system.Reachable state) : holds state := by
  induction reachable with
  | start first => exact invariant.initial _ first
  | next _ step ih => exact invariant.step _ _ ih step

end TransitionSystem
end VgiRpc.Library
