import Conform.Proofs.Wire.Refusals

/-!
# Intersections of object types

The components of an intersection judge one object in turn, each by wire names until it has left
its tag. When they agree on the names, every one of them finds what is its own, so an object that
each accepts alone is accepted by all, unless tags make a match inside it ambiguous.
-/

namespace Conform

open Violation (AnyAmbiguous)
open Validator (readKey forbiddenKeys)

namespace Context

variable {context : Context} {components : List Schema} {content : Identity}
  {fields : Fields Value} {value answer : Value} {schema : Schema}

variable (context) in
/-- Object types that may judge a value in turn: they agree on wire names and rename nothing in
common, the value has nothing under the name of a renamed property, and the panels of its parts are
compatible throughout these. -/
structure Joinable (components : List Schema) (value : Value) : Prop where
  objects : ∀ component ∈ components, ∃ node properties additional,
    context.shape component = .object node properties additional
  apart : ∀ component ∈ components, ∀ component' ∈ components,
    ∀ node properties additional node' properties' additional',
    context.shape component = .object node properties additional →
    context.shape component' = .object node' properties' additional' →
    component = component' ∨ Property.Apart properties properties'
  free : ∀ component ∈ components, ∀ node properties additional,
    context.shape component = .object node properties additional → ∀ property ∈ properties,
    property.Renamed →
      property.name ∉ forbiddenKeys ∧ (value.field property.name).isUndefined = true
  parts : ∀ panel part, context.Inside (· ∈ components) value panel part →
    context.CompatibleThroughout panel part ∧ context.AllKeysUnconcealed panel part

namespace Joinable

variable (joinable : context.Joinable components value)

include joinable

/-- A component leaves its tag. -/
theorem tagged (sound : context.Sound schema) (member : schema ∈ components) {item : Value}
    (judged : context.Judges schema item (.accepted answer)) : schema ∈ answer.tags := by
  obtain ⟨_, _, _, shaped⟩ := joinable.objects schema member
  obtain ⟨_, _, _, _, _, _, rfl, _⟩ := (judged_step sound judged).object shaped
  exact (Tags.mem_insert _ _ _).mpr (.inr rfl)

end Joinable

end Context

/-! ## Letters

A letter is dated and of a kind, and each of the two renames a property of its own. They share
the title, which only one of them requires. -/

namespace Letters

/-- What is dated. -/
def dated : Schema :=
  .named ⟨0, "Dated"⟩

/-- What is of a kind. -/
def classified : Schema :=
  .object 5 [⟨"title", true, none, .string 3 {}⟩,
    ⟨"kindName", true, some "kind_name", .string 4 {}⟩] .keep

/-- What the name stands for. -/
def definitions (_ : NamedRef) : Schema :=
  .object 1 [⟨"createdAt", true, some "created_at", .string 2 {}⟩,
    ⟨"title", false, none, .string 3 {}⟩] .keep

/-- A letter is both. -/
def letter : Schema :=
  .intersection 6 [dated, classified]

/-- All nodes of letters. -/
def nodes : List Schema :=
  [letter, dated, classified, definitions ⟨0, "Dated"⟩, .string 2 {}, .string 3 {}, .string 4 {}]

/-- The fields of a letter, as it arrives. -/
def fields : Fields Value :=
  [("created_at", .string "today"), ("kind_name", .string "note"), ("title", .string "Hello"),
    ("page", .null)]

/-- The two judge a letter in turn. -/
theorem joinable (format : String → Option Validator) (settings : Options) :
    Context.Joinable ⟨definitions, format, settings⟩ [dated, classified]
      (.object (.run 0) fields []) := by
  have shapes : ∀ component ∈ [dated, classified], ∀ {node properties additional},
      Context.shape ⟨definitions, format, settings⟩ component =
        .object node properties additional →
      (component = dated ∧ .object node properties additional = definitions ⟨0, "Dated"⟩) ∨
        component = classified ∧ .object node properties additional = classified := by
    intro component member node properties additional shaped
    simp only [List.mem_cons, List.not_mem_nil, or_false] at member
    rcases member with rfl | rfl
    · exact .inl ⟨rfl, shaped.symm⟩
    · exact .inr ⟨rfl, shaped.symm⟩
  have apart : Property.Apart [⟨"createdAt", true, some "created_at", .string 2 {}⟩,
      ⟨"title", false, none, .string 3 {}⟩] [⟨"title", true, none, .string 3 {}⟩,
      ⟨"kindName", true, some "kind_name", .string 4 {}⟩] := by
    constructor <;> simp [Property.Renamed, readKey]
  refine ⟨?_, ?_, ?_, ?_⟩
  · intro component member
    simp only [List.mem_cons, List.not_mem_nil, or_false] at member
    rcases member with rfl | rfl <;> exact ⟨_, _, _, rfl⟩
  · intro component member component' member' _ _ _ _ _ _ shaped shaped'
    rcases shapes _ member shaped with ⟨rfl, same⟩ | ⟨rfl, same⟩ <;>
      rcases shapes _ member' shaped' with ⟨rfl, same'⟩ | ⟨rfl, same'⟩
    · exact .inl rfl
    · cases same
      cases same'
      exact .inr apart
    · cases same
      cases same'
      exact .inr apart.symm
    · exact .inl rfl
  · intro component member _ _ _ shaped property listed renamed
    rcases shapes _ member shaped with ⟨_, same⟩ | ⟨_, same⟩ <;> cases same <;>
      simp only [List.mem_cons, List.not_mem_nil, or_false] at listed <;>
      rcases listed with rfl | rfl
    · exact ⟨by decide, rfl⟩
    · exact absurd rfl renamed
    · exact absurd rfl renamed
    · exact ⟨by decide, rfl⟩
  · intro panel part inside
    refine Context.compatibleThroughout_of_scalar ?_
    cases inside with
    | @field _ _ _ inner outer _ lies =>
      cases there : (Fields.lookup outer fields).isUndefined with
      | true =>
        rw [Value.eq_undefined there]
        rfl
      | false =>
        have plain : ∀ entry ∈ fields, entry.2.tags? = none := by simp [fields, Value.tags?]
        exact plain _ (Fields.mem_of_lookup there)

end Letters

/-! ## Refused in turn

What each component accepts alone, the second may refuse after the first: an object that carries a
name by then, or that has been given a forbidden key, or inside which a key has been renamed. A
format that is not built in may put anything in the place of a text. -/

namespace Twins

/-- The property is of the second name. -/
def left : Schema :=
  .object 20 [⟨"p", true, none, second⟩] .keep

/-- The property is of the first name, and then of the name that it has. -/
def right : Schema :=
  .object 21 [⟨"p", true, none, .intersection 22 [first, either]⟩] .keep

/-- A property under a forbidden name. -/
def forbidding : Schema :=
  .object 23 [⟨"__proto__", true, some "proto", .unknown⟩] .keep

/-- A property is renamed inside the property. -/
def translating : Schema :=
  .object 25 [⟨"p", true, none, .object 26 [⟨"r", true, some "q", .unknown⟩] .keep⟩] .keep

/-- A property has the wire name of the renamed one. -/
def keeping : Schema :=
  .object 27 [⟨"p", true, none, .object 28 [⟨"q", true, none, .unknown⟩] .keep⟩] .keep

/-- A text is of any form. -/
def unformatted : Schema :=
  .object 31 [⟨"s", true, none, .string 32 {}⟩] .keep

/-- The fields of all, as they arrive. -/
def fields : Fields Value :=
  [("p", .object (.run 0) [("q", .null)] []), ("proto", .null), ("s", .string "a")]

/-- The components, two by two. -/
def pairs : List (List Schema) :=
  [[left, right], [forbidding, right], [translating, keeping]]

/-- All nodes that an intersection of the components reaches. -/
def joined (components : List Schema) : List Schema :=
  [.intersection 24 components, left, right, forbidding, translating, keeping,
    .intersection 22 [first, either], .object 26 [⟨"r", true, some "q", .unknown⟩] .keep,
    .object 28 [⟨"q", true, none, .unknown⟩] .keep] ++ nodes

/-- The properties that the components declare. -/
def declared (components : List Schema) : List (Property Schema) :=
  components.flatMap fun
    | .object _ properties _ => properties
    | _ => []

end Twins

end Conform
