import Conform.Proofs.Discriminator.Dispatch
import Conform.Proofs.Wire.Panels

/-!
# Compatible panels

Schemas that judge one value by turns are compatible when the object types among them are apart,
and when the unions can tell by the tags whether the key that they are decided by has been
renamed. The same is asked of the panels of all parts. All options that a union tries count among
those that judge, as which of them accepts is known only later.
-/

namespace Conform

open Validator (readKey isTaken forbiddenKeys)

namespace Context

variable (context : Context)

/-- The schema may rename what is read under the wire name and leave the tag of no choice. -/
inductive Conceals (value : Value) (choices : List Schema) (wire : String) : Schema → Prop
  | renames {schema : Schema} {node : Nat} {properties : List (Property Schema)}
      {additional : Additional Schema} {property : Property Schema}
      (shaped : context.shape schema = .object node properties additional)
      (member : property ∈ properties) (renamed : property.Renamed)
      (read : readKey true property = wire) (unmarked : schema ∉ choices) :
      Conceals value choices wire schema
  | delegate {schema inner : Schema} (member : inner ∈ context.delegates value schema)
      (conceals : Conceals value choices wire inner)
      (unmarked : ∀ ref, schema = .named ref → schema ∉ choices) :
      Conceals value choices wire schema

/-- No schema of the panel conceals a renamed key that decides a union which the schema leads to. -/
def KeysUnconcealed (panel : Panel) (value : Value) (schema : Schema) : Prop :=
  ∀ node choices discriminator, context.Leads value schema (.union node choices) →
    Discriminator.find? context.definitions choices = some discriminator →
    discriminator.wire ≠ discriminator.key →
    ∀ judge, panel judge → ¬ context.Conceals value choices discriminator.wire judge

/-- The key of a union can be found: properties are renamed from its wire name to its name and
in no other way, and options that the key does not decide are called only when it selects none and
the value has no field under the name. -/
structure KeyFindable (called : Panel) (value : Value) (choices : List Schema)
    (discriminator : Discriminator) : Prop where
  kept : ∀ judge node properties additional, called judge →
    context.shape judge = .object node properties additional → ∀ property ∈ properties,
    property.Renamed → property.name ≠ discriminator.wire ∧
      (property.name = discriminator.key ↔ readKey true property = discriminator.wire)
  aside : discriminator.wire ≠ discriminator.key → ∀ choice ∈ discriminator.aside choices,
    called choice → context.selection? discriminator choices value = none ∧
      (value.field discriminator.key).isUndefined = true

/-- The object types that a panel calls on an object are compatible: any two of them are apart, and
then nothing is under the name of a renamed property; none of them renames to a forbidden key; the
unions among those called can find their keys; and components of an intersection conceal no key
from each other. -/
structure CompatibleOn (panel : Panel) (value : Value) : Prop where
  apart : ∀ judge node properties additional judge' node' properties' additional',
    context.Calls panel value judge → context.Calls panel value judge' →
    context.shape judge = .object node properties additional →
    context.shape judge' = .object node' properties' additional' →
    judge = judge' ∨ Property.Apart properties properties'
  free : ∀ judge node properties additional judge' node' properties' additional',
    context.Calls panel value judge → context.Calls panel value judge' →
    context.shape judge = .object node properties additional →
    context.shape judge' = .object node' properties' additional' → judge' ≠ judge →
    ∀ property ∈ properties, property.Renamed → (value.field property.name).isUndefined = true
  permitted : ∀ judge node properties additional, context.Calls panel value judge →
    context.shape judge = .object node properties additional → ∀ property ∈ properties,
    property.Renamed → property.name ∉ forbiddenKeys
  findable : ∀ node choices discriminator, context.Calls panel value (.union node choices) →
    Discriminator.find? context.definitions choices = some discriminator →
    context.KeyFindable (context.Calls panel value) value choices discriminator
  components : ∀ node components, context.Calls panel value (.intersection node components) →
    ∀ component ∈ components, context.KeysUnconcealed (· ∈ components) value component

/-- On an object, no schema of the panel conceals a key from a schema of it. -/
def AllKeysUnconcealed (panel : Panel) (value : Value) : Prop :=
  value.kind = .object → ∀ judge, panel judge → context.KeysUnconcealed panel value judge

/-- A panel is compatible on the value, and so are the panels of all parts, which conceal no key
from each other. -/
def CompatibleThroughout : Panel → Value → Prop :=
  context.Everywhere (fun panel value => (value.kind = .object → context.CompatibleOn panel value) ∧
    ∀ panel' part, context.Inside panel value panel' part → context.AllKeysUnconcealed panel' part)

variable {context} {panel panel' : Panel} {value value' : Value} {schema inner : Schema}

/-- What a panel does not conceal from a schema, it does not conceal from those that the schema
hands the value on to. -/
theorem KeysUnconcealed.delegate (unconcealed : context.KeysUnconcealed panel value schema)
    (member : inner ∈ context.delegates value schema) : context.KeysUnconcealed panel value inner :=
  fun node choices discriminator leads =>
    unconcealed node choices discriminator (Relation.ReflTransGen.head member leads)

/-- Panels that call the same schemas are compatible alike. -/
theorem CompatibleOn.of_calls (compatible : context.CompatibleOn panel value)
    (same : context.Calls panel' value = context.Calls panel value) :
    context.CompatibleOn panel' value where
  apart := by rw [same]; exact compatible.apart
  free := by rw [same]; exact compatible.free
  permitted := by rw [same]; exact compatible.permitted
  findable := by rw [same]; exact compatible.findable
  components := by rw [same]; exact compatible.components

/-- Panels that call the same schemas are compatible throughout alike. -/
theorem CompatibleThroughout.of_calls (compatibly : context.CompatibleThroughout panel value)
    (same : context.Calls panel' value = context.Calls panel value) :
    context.CompatibleThroughout panel' value :=
  Everywhere.of_calls compatibly same (fun ⟨compatible, unconcealed⟩ =>
    ⟨fun object => (compatible object).of_calls same,
      fun _ _ inside => unconcealed _ _ (inside.of_calls same)⟩)

/-- What is compatible throughout a value is so on the value, if that is an object. -/
theorem CompatibleThroughout.compatible (compatibly : context.CompatibleThroughout panel value)
    (object : value.kind = .object) : context.CompatibleOn panel value :=
  (Everywhere.here compatibly).1 object

/-- The panels of the parts are compatible as well, and conceal no key. -/
theorem CompatibleThroughout.part (compatibly : context.CompatibleThroughout panel value)
    (inside : context.Inside panel value panel' value') :
    context.CompatibleThroughout panel' value' ∧ context.AllKeysUnconcealed panel' value' :=
  ⟨Everywhere.inside compatibly inside, (Everywhere.here compatibly).2 _ _ inside⟩

/-- A panel is compatible throughout a value when it is so on the value and the panels of the parts
are so throughout these. -/
theorem compatibleThroughout_of_parts
    (compatible : value.kind = .object → context.CompatibleOn panel value)
    (parts : ∀ panel' part, context.Inside panel value panel' part →
      context.CompatibleThroughout panel' part ∧ context.AllKeysUnconcealed panel' part) :
    context.CompatibleThroughout panel value := by
  intro place reached
  rcases Relation.ReflTransGen.cases_head reached with rfl | ⟨next, inside, further⟩
  · exact ⟨compatible, fun panel' part inside => (parts panel' part inside).2⟩
  · exact (parts next.1 next.2 inside).1 place further

/-- Every panel is compatible on a scalar. -/
theorem compatibleThroughout_of_scalar (plain : value.tags? = none) :
    context.CompatibleThroughout panel value ∧ context.AllKeysUnconcealed panel value := by
  have other : value.kind ≠ .object := by
    intro object
    cases value with
    | object => cases plain
    | _ => cases object
  refine ⟨compatibleThroughout_of_parts (fun object => absurd object other) ?_,
    fun object => absurd object other⟩
  rintro panel' part (_ | _) <;> cases plain

/-! ## Whoever judges -/

/-- The panel with the components of an intersection. -/
def Panel.join (panel : Panel) (components : List Schema) : Panel := fun judge =>
  panel judge ∨ judge ∈ components

/-- The components of an intersection call no schema that the intersection does not call. -/
theorem calls_join {node : Nat} {components : List Schema}
    (called : context.Calls panel value (.intersection node components)) :
    context.Calls (Panel.join panel components) value = context.Calls panel value := by
  refine calls_eq (fun _ => .inl) ?_
  rintro judge (member | member)
  · exact .own member
  · exact called.delegate member

variable (context) in
/-- The panel calls the schema, is compatible throughout a value without tags, and conceals no key
from the schema. -/
structure CalledCompatibly (panel : Panel) (value : Value) (schema : Schema) : Prop where
  called : context.Calls panel value schema
  compatibly : context.CompatibleThroughout panel value
  unconcealed : value.kind = .object → context.KeysUnconcealed panel value schema
  bare : value.Throughout Value.Bare

namespace CalledCompatibly

/-- Whoever judges may hand the value on. -/
theorem delegate (callee : context.CalledCompatibly panel value schema)
    (member : inner ∈ context.delegates value schema) :
    context.CalledCompatibly panel value inner where
  called := callee.called.delegate member
  compatibly := callee.compatibly
  unconcealed object := (callee.unconcealed object).delegate member
  bare := callee.bare

/-- The components of an intersection join the panel. -/
theorem component {node : Nat} {components : List Schema}
    (callee : context.CalledCompatibly panel value (.intersection node components))
    (member : inner ∈ components) :
    context.CalledCompatibly (Panel.join panel components) value inner where
  called := .own (.inr member)
  compatibly := callee.compatibly.of_calls (calls_join callee.called)
  unconcealed object := by
    rintro node' choices discriminator leads found renamed judge (listed | listed)
    · exact (callee.unconcealed object).delegate member node' choices discriminator leads found
        renamed judge listed
    · exact (callee.compatibly.compatible object).components node components callee.called inner
        member node' choices discriminator leads found renamed judge listed
  bare := callee.bare

/-- What judges the items of an array is callee for each of them. -/
theorem item {content : Identity} {items : List Value} {tags : Tags} {node : Nat}
    {least most : Option Nat} {item : Value}
    (callee : context.CalledCompatibly panel (.array content items tags) schema)
    (shaped : context.shape schema = .array node inner least most) (member : item ∈ items) :
    context.CalledCompatibly
      (context.panelOfItems (context.Calls panel (.array content items tags))) item inner := by
  have own : context.panelOfItems (context.Calls panel (.array content items tags)) inner :=
    ⟨schema, node, least, most, callee.called, shaped⟩
  obtain ⟨compatibly, unconcealed⟩ := callee.compatibly.part (.item member)
  exact ⟨.own own, compatibly, fun object => unconcealed object inner own, callee.bare.item member⟩

/-- What judges a field of an object is callee for it. -/
theorem field {content : Identity} {fields : Fields Value} {tags tags' : Tags} {node : Nat}
    {properties : List (Property Schema)} {additional : Additional Schema}
    {name outer key : String}
    (callee : context.CalledCompatibly panel (.object content fields tags) schema)
    (shaped : context.shape schema = .object node properties additional)
    (lies : context.Lies (context.Calls panel (.object content fields tags)) tags' name outer key)
    (some : Schema.bodyAt? properties additional name = some inner) :
    context.CalledCompatibly
      (context.panelAt (context.Calls panel (.object content fields tags)) name)
      (Fields.lookup outer fields) inner := by
  have own : context.panelAt (context.Calls panel (.object content fields tags)) name inner :=
    ⟨schema, node, properties, additional, callee.called, shaped, some⟩
  obtain ⟨compatibly, unconcealed⟩ := callee.compatibly.part (.field lies.untouched)
  refine ⟨.own own, compatibly, fun object => unconcealed object inner own, ?_⟩
  cases there : (Fields.lookup outer fields).isUndefined with
  | true =>
    rw [Value.eq_undefined there]
    exact (Value.throughout_scalar_iff rfl).mpr ⟨rfl, trivial⟩
  | false => exact callee.bare.field (Fields.mem_of_lookup there)

end CalledCompatibly

end Context

end Conform
