import Conform.Proofs.Traversal.Branching

/-!
# Mappings that end

Routes lead inwards, so a mapping that never makes a value deeper than some bound allows at
its position ends: between two steps at most two plans are entered, and no position that is
reached is longer than the bound. A transform may put a deep value at a leaf and routes may
lead on inside it; what matters is that all its answers keep one bound.
-/

namespace Conform.Traversal

/-- A value is no deeper than a bound allows at its position. -/
def Fits (bound : Nat) (position : List Value.Position) (value : Value) : Prop :=
  value.depth + position.length ≤ bound

/-- So many plans inside each other suffice for a plan at a position. -/
def Ample (plans : Plans) (bound fuel : Nat) (entry : Entry) (position : List Value.Position) :
    Prop :=
  2 * (bound - position.length) + 2 ≤ fuel ∨
    (2 * (bound - position.length) + 1 ≤ fuel ∧
      ∀ routes, plans.lookup entry = some routes → ∀ route ∈ routes, route.steps ≠ [])

section

variable {bound : Nat} {position : List Value.Position} {value : Value} {content : Identity}
  {fields : Fields Value} {items : List Value} {tags : Tags}

/-- A value fits at no position that is longer than the bound. -/
theorem Fits.length_le (fits : Fits bound position value) : position.length ≤ bound := by
  unfold Fits at fits
  omega

end

section

variable {holds : Value → Prop}

end

section

variable {terms : Terms} {leaf : NamedRef} {recognised : Value → Bool} {plans : Plans}
  {transform : Transform} {bound fuel : Nat}

/-- What suffices for a plan leaves enough for the next one. -/
theorem Ample.next {entry onward : Entry} {routes : List Route} {route : Route}
    {position place : List Value.Position} (ample : Ample plans bound (fuel + 1) entry position)
    (descending : Descending plans) (plan : plans.lookup entry = some routes)
    (member : route ∈ routes) (long : place.length = position.length + route.steps.length)
    (room : place.length ≤ bound) (continues : route.goal.entry? = some onward) :
    Ample plans bound fuel onward place := by
  by_cases stays : route.steps = []
  · rw [stays, List.length_nil] at long
    obtain ample | ⟨_, steps⟩ := ample
    · cases goal : route.goal with
      | leaf =>
        rw [goal] at continues
        cases continues
      | tagged ref =>
        rw [goal] at continues
        cases continues
        exact .inr ⟨by omega, descending.tagged entry routes plan route member ref goal⟩
      | shaped ref ambiguous =>
        exact absurd stays (descending.shaped entry routes plan route member ref ambiguous goal)
    · exact absurd stays (steps routes plan route member)
  · have some := List.length_pos_iff.mpr stays
    left
    obtain ample | ⟨ample, _⟩ := ample <;> omega

end

end Conform.Traversal
