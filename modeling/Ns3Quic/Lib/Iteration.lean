import Mathlib.Order.Monotone.Basic

/-!
# Iterating a step

A sequence of states each of which is one step after the one before.  A value
that no step lowers within an invariant region is monotone along the sequence,
and a measure that every proper step lowers brings the sequence to a fixed
point.
-/

namespace Iteration

universe u v

def Orbit {State : Type u} (step : State → State) (states : Nat → State) : Prop :=
  ∀ round, states (round + 1) = step (states round)

section Orbit

variable {State : Type u} {Value : Type v} [Preorder Value] {step : State → State}
  {states : Nat → State} (property : State → Prop)

theorem Orbit.invariant (orbit : Orbit step states)
    (preserved : ∀ state, property state → property (step state))
    (initially : property (states 0)) (round : Nat) : property (states round) := by
  induction round with
  | zero => exact initially
  | succ round inductionHypothesis =>
      rw [orbit round]
      exact preserved _ inductionHypothesis

theorem Orbit.monotone (orbit : Orbit step states) (value : State → Value)
    (preserved : ∀ state, property state → property (step state))
    (rises : ∀ state, property state → value state ≤ value (step state))
    (initially : property (states 0)) : Monotone fun round => value (states round) := by
  refine monotone_nat_of_le_succ fun round => ?_
  rw [orbit round]
  exact rises _ (orbit.invariant property preserved initially round)

theorem Orbit.antitone (orbit : Orbit step states) (value : State → Value)
    (preserved : ∀ state, property state → property (step state))
    (falls : ∀ state, property state → value (step state) ≤ value state)
    (initially : property (states 0)) : Antitone fun round => value (states round) := by
  refine antitone_nat_of_succ_le fun round => ?_
  rw [orbit round]
  exact falls _ (orbit.invariant property preserved initially round)

theorem Orbit.stays (orbit : Orbit step states) {settled later : Nat}
    (fixed : step (states settled) = states settled) (after : settled ≤ later) :
    states later = states settled := by
  induction later, after using Nat.le_induction with
  | base => rfl
  | succ later _ inductionHypothesis => rw [orbit later, inductionHypothesis, fixed]

/-- A measure that every proper step lowers brings the sequence to a fixed
point. -/
theorem Orbit.settles (orbit : Orbit step states) (measure : State → Nat)
    (preserved : ∀ state, property state → property (step state))
    (lowers : ∀ state, property state → step state = state ∨ measure (step state) < measure state)
    (initially : property (states 0)) : ∃ settled, step (states settled) = states settled := by
  have fromRound (size : Nat) (round : Nat) (bound : measure (states round) ≤ size) :
      ∃ settled, step (states settled) = states settled := by
    induction size generalizing round with
    | zero =>
        rcases lowers _ (orbit.invariant property preserved initially round) with fixed | lower
        · exact ⟨round, fixed⟩
        · omega
    | succ size inductionHypothesis =>
        rcases lowers _ (orbit.invariant property preserved initially round) with fixed | lower
        · exact ⟨round, fixed⟩
        · refine inductionHypothesis (round + 1) ?_
          rw [orbit round]
          omega
  exact fromRound _ 0 (Nat.le_refl _)

end Orbit

end Iteration
