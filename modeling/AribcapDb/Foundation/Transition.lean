import Mathlib

/-! # Transition systems

A system is a set of start states and a step relation. An invariant holds at the start and
is kept by every step; it then holds in every reachable state
(`Transition.Reachable.invariant`). Runs whose steps all satisfy a side condition are the
reachable states of the step relation cut down to that condition
(`Transition.Restricted`).
-/

namespace Transition

variable {σ : Type*}

/-- Reached from a start state by finitely many steps. -/
inductive Reachable (start : σ → Prop) (step : σ → σ → Prop) : σ → Prop where
  | initial {state : σ} : start state → Reachable start step state
  | next {before after : σ} :
      Reachable start step before → step before after → Reachable start step after

/-- The steps that meet a condition on the state they start from and the one they reach. -/
def Restricted (step condition : σ → σ → Prop) (before after : σ) : Prop :=
  step before after ∧ condition before after

namespace Reachable

variable {start : σ → Prop} {step : σ → σ → Prop} {state : σ}

/-- What holds at the start and is kept by every step from a reachable state holds in every
reachable state. -/
theorem invariant {inv : σ → Prop} (init : ∀ state, start state → inv state)
    (kept : ∀ before after, Reachable start step before → inv before → step before after →
      inv after) (reachable : Reachable start step state) : inv state := by
  induction reachable with
  | initial started => exact init _ started
  | next before stepped ih => exact kept _ _ before ih stepped

/-- More steps reach more states. -/
theorem mono {finer : σ → σ → Prop} (coarser : ∀ before after, finer before after →
    step before after) (reachable : Reachable start finer state) :
    Reachable start step state := by
  induction reachable with
  | initial started => exact .initial started
  | next _ stepped ih => exact .next ih (coarser _ _ stepped)

/-- A restricted run is a run. -/
theorem unrestricted {condition : σ → σ → Prop}
    (reachable : Reachable start (Restricted step condition) state) :
    Reachable start step state :=
  reachable.mono fun _ _ stepped => stepped.1

end Reachable

end Transition
