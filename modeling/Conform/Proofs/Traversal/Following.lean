import Conform.Proofs.Lists
import Conform.Proofs.Traversal.Plans

/-!
# Following a path in a search

A path through a schema may be followed in the search for routes. Whatever the search meets
where it stands on the path is met by the plan that it works on. The search does not enter a
name again before a step was taken, so the path has to avoid the names entered since the
last one; where it comes back to another name, it goes on in the plan that starts there.
-/

namespace Conform.Traversal

/-- Where a search stands that follows a path: whatever it meets from here is met by the plan
that it works on, and the path avoids the names that the search may not enter again without a
step. -/
structure Following (definitions : Definitions) (root leaf : NamedRef) (entry : Entry)
    (entered : Entered) (steps : List Step) (forked : Bool) (schema : Schema)
    (avoided : NamedRef → Prop) : Prop where
  explored : entry.Explored definitions root leaf
  onward : ∀ result, Meets definitions leaf entered steps forked schema result →
    entry.Meets definitions leaf result
  depths : ∀ ref depth, (ref, depth) ∈ entered → depth ≤ steps.length
  recent : ∀ ref, (ref, steps.length) ∈ entered → ref.isObject definitions = false → avoided ref

section

variable {definitions : Definitions} {root leaf : NamedRef} {entry : Entry} {entered : Entered}
  {steps : List Step} {forked : Bool} {schema : Schema} {avoided later : NamedRef → Prop}

/-- A search that works on a plan stands where the plan starts. -/
theorem Following.start (entry : Entry) (explored : entry.Explored definitions root leaf)
    (listed : entry.ref.isObject definitions = false → avoided entry.ref) :
    Following definitions root leaf entry [(entry.ref, 0)] [] entry.ambiguous
      (definitions entry.ref) avoided where
  explored := explored
  onward result inside := inside
  depths ref depth member := by
    cases List.mem_singleton.mp member
    exact Nat.le_refl 0
  recent ref member indirect := by
    cases List.mem_singleton.mp member
    exact listed indirect

/-- A search goes one step further along a path. -/
theorem Following.step (following : Following definitions root leaf entry entered steps forked
    schema avoided) {inner : Schema} {step : Step}
    (onward : ∀ result, Meets definitions leaf entered (steps ++ [step]) forked inner result →
      Meets definitions leaf entered steps forked schema result) :
    Following definitions root leaf entry entered (steps ++ [step]) forked inner later where
  explored := following.explored
  onward result inside := following.onward result (onward result inside)
  depths ref depth member := by
    rw [List.length_append]
    exact Nat.le_add_right_of_le (following.depths ref depth member)
  recent ref member := by
    have shallow := following.depths ref _ member
    rw [List.length_append, List.length_singleton] at shallow
    omega

/-- A search goes on along a path without a step. -/
theorem Following.facet (following : Following definitions root leaf entry entered steps forked
    schema avoided) {inner : Schema} {further : Bool}
    (onward : ∀ result, Meets definitions leaf entered steps further inner result →
      Meets definitions leaf entered steps forked schema result)
    (weaker : ∀ ref, avoided ref → later ref) :
    Following definitions root leaf entry entered steps further inner later where
  explored := following.explored
  onward result inside := following.onward result (onward result inside)
  depths := following.depths
  recent ref member indirect := weaker ref (following.recent ref member indirect)

/-- A plan that a route leads to is explored. -/
theorem Following.explored_next (following : Following definitions root leaf entry entered steps
    forked schema avoided) {route : Route} {next : Entry}
    (meets : Meets definitions leaf entered steps forked schema (some route))
    (continues : route.goal.entry? = some next) : next.Explored definitions root leaf :=
  following.explored.tail ⟨route, following.onward _ meets, continues⟩

/-- At a name that is not directly an object and not avoided, a search goes on with its
definition, or meets a route to the plan that starts there. -/
theorem Following.name {ref : NamedRef} (following : Following definitions root leaf entry entered
    steps forked (.named ref) avoided) (other : ref ≠ leaf)
    (indirect : ref.isObject definitions = false) (new : ¬ avoided ref)
    (weaker : ∀ ref, avoided ref → later ref) (listed : later ref) :
    Following definitions root leaf entry ((ref, steps.length) :: entered) steps forked
        (definitions ref) later ∨
      Meets definitions leaf entered steps forked (.named ref)
        (some ⟨steps, .shaped ref forked⟩) := by
  cases found : entered.lookup ref with
  | none =>
    refine .inl
      { explored := following.explored
        onward := fun result inside =>
          following.onward result (.name ⟨other, indirect, found⟩ inside)
        depths := fun ref depth member => ?_
        recent := fun ref member object => ?_ }
    · obtain here | inside := List.mem_cons.mp member
      · cases here
        exact Nat.le_refl _
      · exact following.depths ref depth inside
    · obtain here | inside := List.mem_cons.mp member
      · cases here
        exact listed
      · exact weaker ref (following.recent ref inside object)
  | some depth =>
    have member := mem_of_lookup_eq_some found
    have deeper : depth < steps.length := by
      refine Nat.lt_of_le_of_ne (following.depths ref depth member) (fun same => new ?_)
      exact following.recent ref (same ▸ member) indirect
    exact .inr (.shaped other indirect found deeper)

end

end Conform.Traversal
