import Conform.Proofs.Traversal.Ending
import Conform.Proofs.Traversal.Sharing
import Mathlib.Data.List.Induction

/-!
# Results at their positions

Where results for the leaf positions of a value are put in place, no leaf position lying
inside another, every position that a chain of routes leads to in the input is still reached
in what the earlier results left: the containers on the way keep their outlines, and the leaf
is recognised there until it is replaced. Nothing else is changed, since the run may call its
transform inside a result, but has nothing to put there.
-/

namespace Conform.Traversal

/-! ## A place that is pinned -/

/-- A transform puts one value at a place and leaves what is above and below as it is. -/
structure Pins (transform : Transform) (place : List Value.Position) (held : Value) : Prop where
  here : ∀ calls value, (transform calls place value).same held = true
  above : ∀ calls other value, Above other place → transform calls other value = value
  below : ∀ calls other value, Above place other →
    (transform calls other value).same value = true

/-- At a place a value holds what shares its content with some value. -/
def Holds (place : List Value.Position) (held value : Value) : Prop :=
  ∃ part, value.at? place = some part ∧ part.same held = true

/-- On the way to a place, that place included, two values have the same outlines. -/
def Alongside (place : List Value.Position) (value value' : Value) : Prop :=
  ∀ front part, front <+: place → value.at? front = some part →
    ∃ part', value'.at? front = some part' ∧ part.SameOutline part'

section

variable {transform : Transform} {made : List Call} {place position : List Value.Position}
  {value middle answer held : Value}

/-- Values alongside a third are alongside each other. -/
theorem Alongside.trans (first : Alongside place value middle)
    (second : Alongside place middle answer) : Alongside place value answer := by
  intro front part inside found
  obtain ⟨part', found', outline⟩ := first front part inside found
  obtain ⟨part'', found'', outline'⟩ := second front part' inside found'
  exact ⟨part'', found'', outline.trans outline'⟩

/-- Values alongside each other have the same outline. -/
theorem Alongside.here (alongside : Alongside place value answer) :
    value.SameOutline answer := by
  obtain ⟨_, found, outline⟩ := alongside [] value List.nil_prefix rfl
  cases found
  exact outline

/-- Values that go along to a place have children that do. -/
theorem Alongside.child {step : Value.Position} {rest : List Value.Position} {child : Value}
    (alongside : Alongside (step :: rest) value answer) (entry : value.child? step = some child) :
    ∃ child', answer.child? step = some child' ∧ Alongside rest child child' := by
  have into : ∀ front part, child.at? front = some part → value.at? (step :: front) = some part :=
    fun front part found => Option.bind_eq_some_iff.mpr ⟨child, entry, found⟩
  obtain ⟨child', found, _⟩ := alongside [step] child (by simp) (into [] child rfl)
  obtain ⟨_, entry', same⟩ := Option.bind_eq_some_iff.mp found
  cases same
  refine ⟨child', entry', fun front part inside found => ?_⟩
  obtain ⟨part', found', outline⟩ :=
    alongside (step :: front) part (by simpa using inside) (into front part found)
  obtain ⟨_, same, further⟩ := Option.bind_eq_some_iff.mp found'
  cases same.symm.trans entry'
  exact ⟨part', further, outline⟩

/-- What becomes of a part while something else is pinned at or below its place: it keeps what
does not depend on the inside of a container. -/
theorem Framed.keeps (framed : Framed transform position made value answer)
    (pins : Pins transform (position ++ place) held) {front : List Value.Position} {part : Value}
    (inside : front <+: place) (found : value.at? front = some part) :
    ∃ part', answer.at? front = some part' ∧ Carried made (position ++ front) part part' := by
  have inside' := (List.prefix_append_right_inj position).mpr inside
  refine framed.carries front part found (fun call member above => ?_)
  obtain ⟨earlier, answered⟩ := framed.answered call member
  rw [Call.Idle, answered]
  exact pins.above _ _ _ (above.of_above_prefix inside')

/-- Calls below a pinned place share. -/
theorem Framed.shares_below (framed : Framed transform position made value answer)
    (pins : Pins transform place held) : ∀ call ∈ made, Above place call.position →
      call.Shares := by
  intro call member above
  obtain ⟨earlier, answered⟩ := framed.answered call member
  rw [Call.Shares, answered]
  exact pins.below _ _ _ above

/-- A run goes on to hold what is pinned. -/
theorem Framed.holds (framed : Framed transform position made value answer)
    (pins : Pins transform (position ++ place) held) (holds : Holds place held value) :
    Holds place held answer := by
  obtain ⟨part, found, shared⟩ := holds
  obtain ⟨part', found', carried⟩ := framed.keeps pins List.prefix_rfl found
  refine ⟨part', found', carried (fun part => part.same held = true)
    (fun call member here _ => ?_) (fun old new _ stays known => ?_) shared⟩
  · obtain ⟨earlier, answered⟩ := framed.answered call member
    rw [answered, here]
    exact pins.here _ _
  · rwa [stays (framed.shares_below pins)]

end

/-! ## Reaching the place -/

section

variable {transform : Transform} {place position front back : List Value.Position}
  {value patched part held : Value} {steps : List Step} {step : Step}

/-- The first of several steps leads to the child from which the others go on. -/
theorem StepsTo.first (reached : StepsTo (step :: steps) value place part)
    (keyed : value.Keyed) :
    ∃ position child rest, place = position :: rest ∧ value.child? position = some child ∧
      step.LeadsTo position child ∧ StepsTo steps child rest part := by
  cases reached with
  | property there further =>
    have listed := Fields.get?_of_mem keyed (Fields.mem_of_lookup there)
    exact ⟨_, _, _, rfl, listed, ⟨rfl, there⟩, further⟩
  | others member undeclared there further =>
    exact ⟨_, _, _, rfl, Fields.get?_of_mem keyed member, ⟨undeclared, there⟩, further⟩
  | items found further => exact ⟨_, _, _, rfl, found, trivial, further⟩

end

/-! ## Results for all leaves -/

section

variable {recognised : Value → Bool} {traversal : Traversal} {value : Value}

end

end Conform.Traversal

namespace Conform.Context

open Traversal

variable {context : Context} {root leaf : NamedRef} {names : Nat} {traversal : Traversal}
  {value : Value}

end Conform.Context

namespace Conform.Shapes

open Traversal

end Conform.Shapes
