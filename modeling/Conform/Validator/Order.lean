import Conform.Schema.Resolve

/-!
# The order in which properties are checked

Cheap and telling checks come first. The order is that of six classes, and inside a
class that of declaration; names listed by the caller go before all of them. It has no
say in what is accepted, only in which violation is found first.
-/

namespace Conform

namespace Schema

/-- Whether the schema is a string with a pattern. -/
def hasPattern : Schema → Bool
  | .string _ rules => rules.pattern.isSome
  | _ => false

end Schema

namespace Property

/-- The class of a property: one literal, several literals, strings with a pattern,
required scalars, other scalars, all else. -/
def checkClass (definitions : Definitions) (property : Property Schema) : Nat :=
  match property.body.literals? definitions with
  | some literals => if literals.length = 1 then 0 else 1
  | none =>
    if (property.body.resolve definitions).hasPattern then 2
    else if property.body.isScalar definitions then (if property.required then 3 else 4)
    else 5

/-- The properties named by the caller, by index, as often as they are named. -/
def listed (properties : List (Property Schema)) (names : List String) : List Nat :=
  names.filterMap (fun name => properties.findIdx? (fun property => property.name = name))

/-- The class of the property at an index. -/
def classAt (definitions : Definitions) (properties : List (Property Schema)) (index : Nat) : Nat :=
  match properties[index]? with
  | some property => property.checkClass definitions
  | none => 6

/-- The order of checks, by index: first the listed names, then class by class. -/
def checkOrder (definitions : Definitions) (properties : List (Property Schema))
    (names : List String) : List Nat :=
  let first := listed properties names
  let others := (List.range properties.length).filter (fun index => !first.contains index)
  first ++ (List.range 6).flatMap (fun rank =>
    others.filter (fun index => classAt definitions properties index == rank))

/-- There are six classes of checks. -/
theorem checkClass_lt (definitions : Definitions) (property : Property Schema) :
    property.checkClass definitions < 6 := by
  unfold checkClass
  split
  · split <;> decide
  · split
    · decide
    · split
      · split <;> decide
      · decide

/-- Every declared property is checked, and nothing else. -/
theorem mem_checkOrder (definitions : Definitions) (properties : List (Property Schema))
    (names : List String) (index : Nat) :
    index ∈ checkOrder definitions properties names ↔ index < properties.length := by
  unfold checkOrder
  simp only [List.mem_append, List.mem_flatMap, List.mem_filter, List.mem_range]
  constructor
  · rintro (early | ⟨_, _, ⟨bound, _⟩, _⟩)
    · obtain ⟨name, _, found⟩ := List.mem_filterMap.1 early
      exact (List.findIdx?_eq_some_iff_getElem.1 found).1
    · exact bound
  · intro bound
    by_cases early : index ∈ listed properties names
    · exact Or.inl early
    · refine Or.inr ⟨classAt definitions properties index, ?_, ⟨bound, ?_⟩, ?_⟩
      · have small := checkClass_lt definitions properties[index]
        simpa [classAt, List.getElem?_eq_getElem bound] using small
      · simpa using early
      · simp

end Property

end Conform
