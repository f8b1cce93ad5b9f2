import Conform.Proofs.Attempt.Checks
import Conform.Proofs.Value.Contents

/-!
# Conformance

What it means for a value to conform to a schema, said without validators: each kind of
schema asks something of the value and, of the value or of what it holds, conformance to
its parts. Unfolding this so many times gives an approximation, and a value conforms when
all approximations from some number of rounds on say so.

For a schema that recurs only by way of containers the approximations settle, and
conformance is the relation that its clauses describe.
-/

namespace Conform

/-- The literal is listed, or there is no list. -/
def Listed (allowed : List Literal) (literal : Literal) : Prop :=
  allowed = [] ∨ literal.isIn allowed = true

/-- What a number node asks of a number. -/
structure NumberRules.Admits (rules : NumberRules) (number : Binary64) : Prop where
  minimum : ∀ limit, rules.minimum = some limit → limit.le number = true
  maximum : ∀ limit, rules.maximum = some limit → number.le limit = true
  exclusiveMinimum : ∀ limit, rules.exclusiveMinimum = some limit → limit.lt number = true
  exclusiveMaximum : ∀ limit, rules.exclusiveMaximum = some limit → number.lt limit = true
  allowed : Listed rules.allowed (.number number)

/-- What a string node without a format asks of a text. -/
structure StringRules.Admits (rules : StringRules) (text : String) : Prop where
  minLength : ∀ least, rules.minLength = some least → least ≤ text.length
  maxLength : ∀ most, rules.maxLength = some most → text.length ≤ most
  allowed : Listed rules.allowed (.string text)
  pattern : ∀ pattern, rules.pattern = some pattern → pattern.matchesText text = true

/-- The count is within bounds. -/
structure Counted (least most : Option Nat) (count : Nat) : Prop where
  least : ∀ bound, least = some bound → bound ≤ count
  most : ∀ bound, most = some bound → count ≤ bound

/-- What becomes of a property that is not declared. -/
def Additional.Admits {α : Type} (conforms : α → Value → Prop) :
    Additional α → Value → Prop
  | .keep, _ => True
  | .deny, _ => False
  | .each body, value => conforms body value

/-- What an object asks of fields. -/
structure FieldsConform (conforms : Schema → Value → Prop) (properties : List (Property Schema))
    (additional : Additional Schema) (fields : Fields Value) : Prop where
  permitted : ∀ key ∈ Validator.forbiddenKeys, key ∉ fields.keys
  required : ∀ property ∈ properties, property.required = true →
    (fields.lookup property.name).isUndefined = false
  declared : ∀ property ∈ properties, (fields.lookup property.name).isUndefined = false →
    conforms property.body (fields.lookup property.name)
  others : ∀ key value, (key, value) ∈ fields → key ∉ Property.names properties →
    value.isUndefined = false → additional.Admits conforms value

/-- What an object asks of fields depends on conformance of their values to its contents. -/
theorem FieldsConform.imp {conforms conforms' : Schema → Value → Prop}
    {properties : List (Property Schema)} {additional : Additional Schema} {fields : Fields Value}
    (weaker : ∀ body ∈ properties.map Property.body ++ additional.bodies,
      ∀ entry ∈ fields, conforms body entry.2 → conforms' body entry.2)
    (clause : FieldsConform conforms properties additional fields) :
    FieldsConform conforms' properties additional fields := by
  obtain ⟨permitted, required, declared, others⟩ := clause
  refine ⟨permitted, required, fun property member there => ?_,
    fun key value member undeclared there => ?_⟩
  · have conforming := declared property member there
    exact weaker _ (additional.declared_mem member) _ (Fields.mem_of_lookup there) conforming
  · have admitted := others key value member undeclared there
    cases additional with
    | keep => exact trivial
    | deny => exact admitted
    | each body =>
      exact weaker body (Additional.each_mem properties rfl) _ member admitted

namespace Schema

/-- What a schema asks of a value, when `conforms` is what its parts ask. -/
def Clause (definitions : Definitions) (conforms : Schema → Value → Prop) :
    Schema → Value → Prop
  | .unknown, _ => True
  | .void, value => value = .undefined
  | .null, value => value = .null
  | .boolean _ rules, value => ∃ found, value = .bool found ∧ Listed rules.allowed (.bool found)
  | .integer _ rules, value => ∃ number, value = .number number ∧
      number.toBinary64.isWhole = true ∧ rules.Admits number.toBinary64
  | .number _ rules, value => ∃ number, value = .number number ∧ rules.Admits number.toBinary64
  | .string _ rules, value => ∃ text, value = .string text ∧ rules.Admits text
  | .array _ items least most, value => ∃ content list tags, value = .array content list tags ∧
      Counted least most list.length ∧ ∀ item ∈ list, conforms items item
  | .object _ properties additional, value => ∃ content fields tags,
      value = .object content fields tags ∧ FieldsConform conforms properties additional fields
  | .union _ choices, value =>
    ∃! index : Nat, ∃ choice, choices[index]? = some choice ∧ conforms choice value
  | .intersection _ components, value => ∀ component ∈ components, conforms component value
  | .named ref, value => conforms (definitions ref) value

/-- Conformance with so many rounds of unfolding. -/
def ConformsWithin (definitions : Definitions) : Nat → Schema → Value → Prop
  | 0 => fun _ _ => False
  | rounds + 1 => Clause definitions (ConformsWithin definitions rounds)

/-- The value conforms to the schema. -/
def Conforms (definitions : Definitions) (schema : Schema) (value : Value) : Prop :=
  ∃ bound, ∀ rounds, bound ≤ rounds → ConformsWithin definitions rounds schema value

/-! ## Conformance is what its clauses describe -/

section

variable {definitions : Definitions} {conforms conforms' : Schema → Value → Prop} {schema : Schema}
  {value : Value}

/-- A clause depends on conformance of the value to facets and of its contents to contents. -/
theorem clause_congr
    (facets : ∀ facet ∈ schema.facets definitions, conforms facet value ↔ conforms' facet value)
    (contents : ∀ part ∈ schema.contents, ∀ item ∈ value.contents,
      conforms part item ↔ conforms' part item) :
    schema.Clause definitions conforms value ↔ schema.Clause definitions conforms' value := by
  cases schema with
  | array node items least most =>
    refine exists_congr fun content => exists_congr fun list => exists_congr fun tags =>
      and_congr_right fun shape => and_congr_right fun _ => forall₂_congr fun item member => ?_
    subst shape
    exact contents items items_mem_contents item member
  | object node properties additional =>
    refine exists_congr fun content => exists_congr fun fields => exists_congr fun tags =>
      and_congr_right fun shape => ?_
    subst shape
    constructor <;> refine FieldsConform.imp (fun body member entry inside => ?_)
    · exact (contents body member entry.2 (List.mem_map_of_mem inside)).mp
    · exact (contents body member entry.2 (List.mem_map_of_mem inside)).mpr
  | union node choices =>
    refine existsUnique_congr fun index => exists_congr fun choice =>
      and_congr_right fun listed => ?_
    exact facets choice (List.mem_of_getElem? listed)
  | intersection node components =>
    exact forall₂_congr fun component member => facets component member
  | named ref => exact facets _ definition_mem_facets
  | _ => exact Iff.rfl

/-- For values of at most this depth the rounds agree from some number on, and they agree on
what the clause says. -/
def Settled (definitions : Definitions) (schema : Schema) (depth : Nat) : Prop :=
  (∃ bound, ∀ rounds, bound ≤ rounds → ∀ value, value.depth ≤ depth →
    (schema.ConformsWithin definitions rounds value ↔ schema.Conforms definitions value)) ∧
  ∀ value, value.depth ≤ depth →
    (schema.Conforms definitions value ↔ schema.Clause definitions (Conforms definitions) value)

/-- A schema is settled when its facets are and, for less deep values, its contents. -/
theorem settled_of_parts {depth : Nat}
    (facets : ∀ facet ∈ schema.facets definitions, Settled definitions facet depth)
    (contents : ∀ part ∈ schema.contents, ∀ less < depth, Settled definitions part less) :
    Settled definitions schema depth := by
  obtain ⟨first, facets⟩ := exists_common_bound (schema.facets definitions)
    (fun facet member => (facets facet member).1)
  obtain ⟨second, contents⟩ : ∃ bound, ∀ rounds, bound ≤ rounds → ∀ part ∈ schema.contents,
      ∀ item, item.depth < depth → (part.ConformsWithin definitions rounds item ↔
        part.Conforms definitions item) := by
    refine exists_common_bound schema.contents (fun part member => ?_)
    rcases depth with _ | less
    · exact ⟨0, fun _ _ _ deep => absurd deep (Nat.not_lt_zero _)⟩
    · obtain ⟨bound, agree⟩ := (contents part member less (Nat.lt_succ_self less)).1
      exact ⟨bound, fun rounds enough item shallow =>
        agree rounds enough item (Nat.le_of_lt_succ shallow)⟩
  have unfolded : ∀ rounds, max first second + 1 ≤ rounds → ∀ value, value.depth ≤ depth →
      (schema.ConformsWithin definitions rounds value ↔
        schema.Clause definitions (Conforms definitions) value) := by
    intro rounds enough value shallow
    obtain ⟨less, rfl, within⟩ := exists_eq_add_of_add_le enough
    refine clause_congr (fun facet member => ?_) (fun part member item inside => ?_)
    · exact facets less (Nat.max_le.mp within).1 facet member value shallow
    · exact contents less (Nat.max_le.mp within).2 part member item
        (Nat.lt_of_lt_of_le (Value.depth_lt_of_mem_contents inside) shallow)
  have clause : ∀ value, value.depth ≤ depth → (schema.Conforms definitions value ↔
      schema.Clause definitions (Conforms definitions) value) := by
    intro value shallow
    constructor
    · rintro ⟨bound, within⟩
      exact (unfolded (max bound (max first second + 1)) (by omega) value shallow).mp
        (within _ (Nat.le_max_left _ _))
    · exact fun clause => ⟨max first second + 1, fun rounds enough =>
        (unfolded rounds enough value shallow).mpr clause⟩
  refine ⟨⟨max first second + 1, fun rounds enough value shallow => ?_⟩, clause⟩
  exact (unfolded rounds enough value shallow).trans (clause value shallow).symm

/-- A value conforms to a grounded schema exactly when it meets the clause of the schema, in
which conformance stands for the parts. -/
theorem conforms_iff_clause (grounded : schema.Grounded definitions) (value : Value) :
    schema.Conforms definitions value ↔
      schema.Clause definitions (Conforms definitions) value := by
  have settled : Settled definitions schema value.depth :=
    grounded_induction (motive := Settled definitions)
      (fun schema depth _ _ facets smaller => settled_of_parts facets (fun part member =>
        smaller part (Relation.ReflTransGen.single (List.mem_append_right _ member))))
      grounded grounded value.depth
  exact settled.2 value (Nat.le_refl _)

end

end Schema

end Conform
