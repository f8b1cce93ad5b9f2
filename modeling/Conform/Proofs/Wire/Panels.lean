import Conform.Proofs.Attempt.Concord
import Conform.Proofs.Wire.Names

/-!
# Who judges a value that arrives by wire names

A value may be judged by several schemas, each on what the one before answered: by the
components of an intersection, or by one schema again and again. An object type reads wire
names unless the object carries its own tag, and it renames what it reads. So what one of
them finds depends on those that judged before.

A panel is the schemas that judge one value. It calls further schemas, as unions, intersections
and names hand the value on, and each part of the value has a panel of its own.
-/

namespace Conform

open Validator (readKey isTaken forbiddenKeys)

/-! ## Properties side by side -/

namespace Property

/-- The property has a name of its own on the wire. -/
def Renamed (property : Property Schema) : Prop :=
  readKey true property ≠ property.name

instance : DecidablePred Renamed :=
  fun _ => inferInstanceAs (Decidable (_ ≠ _))

end Property

namespace Validator

variable {properties : List (Property Schema)} {property : Property Schema} {wire : Bool}
  {key : String}

/-- A property is read under its wire name or its name. -/
theorem readKey_eq (wire : Bool) (property : Property Schema) :
    readKey wire property = readKey true property ∨ readKey wire property = property.name := by
  cases wire with
  | true => exact .inl rfl
  | false => exact .inr (readKey_false property)

/-- A property that is not renamed is read under its name. -/
theorem readKey_of_plain (plain : ¬ property.Renamed) (wire : Bool) :
    readKey wire property = property.name := by
  rcases readKey_eq wire property with read | read
  · exact read.trans (not_not.mp plain)
  · exact read

/-- What takes a key and is not renamed is read under it. -/
theorem reads_of_plain (plain : ¬ property.Renamed)
    (takes : readKey true property = key ∨ property.name = key) (wire : Bool) :
    readKey true property = key ∧ readKey wire property = key := by
  rw [readKey_of_plain plain, readKey_of_plain plain]
  rw [readKey_of_plain plain, or_self] at takes
  exact ⟨takes, takes⟩

/-- A property takes its wire name and its name. -/
theorem isTaken_of_mem (member : property ∈ properties)
    (takes : readKey wire property = key ∨ property.name = key) :
    isTaken wire properties key = true :=
  List.any_eq_true.mpr ⟨property, member, by simpa using takes⟩

/-- A key is taken by a property. -/
theorem exists_of_isTaken (taken : isTaken wire properties key = true) :
    ∃ property ∈ properties, readKey wire property = key ∨ property.name = key := by
  simpa [isTaken] using taken

/-- What takes a key takes it on the wire. -/
theorem takes_true (takes : readKey wire property = key ∨ property.name = key) :
    readKey true property = key ∨ property.name = key := by
  rcases takes with read | named
  · exact (readKey_eq wire property).imp (fun same => same.symm.trans read)
      (fun same => same.symm.trans read)
  · exact .inr named

/-- What is not taken on the wire is not taken otherwise. -/
theorem untaken_of_true (untaken : isTaken true properties key = false) (wire : Bool) :
    isTaken wire properties key = false := by
  refine Bool.eq_false_iff.mpr (fun taken => ?_)
  obtain ⟨property, member, takes⟩ := exists_of_isTaken taken
  exact Bool.eq_false_iff.mp untaken (isTaken_of_mem member (takes_true takes))

end Validator

namespace Property

/-- Properties of two objects that agree on wire names and rename nothing in common: a name
they share has one wire name, other names have others, no wire name is the name of a renamed
property, and no renamed property belongs to both. -/
structure Apart (properties others : List (Property Schema)) : Prop where
  agree : ∀ property ∈ properties, ∀ other ∈ others,
    (property.name = other.name ↔ readKey true property = readKey true other)
  free : ∀ property ∈ properties, ∀ other ∈ others, property.Renamed →
    readKey true other ≠ property.name
  free' : ∀ property ∈ properties, ∀ other ∈ others, other.Renamed →
    readKey true property ≠ other.name
  single : ∀ property ∈ properties, ∀ other ∈ others, property.name = other.name →
    ¬ property.Renamed

namespace Apart

variable {properties others : List (Property Schema)}

/-- Properties are apart in both directions. -/
theorem symm (apart : Apart properties others) : Apart others properties where
  agree property member other member' := by
    rw [eq_comm, apart.agree other member' property member, eq_comm]
  free property member other member' := apart.free' other member' property member
  free' property member other member' := apart.free other member' property member
  single property member other member' same renamed := by
    have shared := (apart.agree other member' property member).mp same.symm
    refine apart.single other member' property member same.symm (fun plain => renamed ?_)
    exact shared.symm.trans (plain.trans same.symm)

/-- What one object renames, the other does not take. -/
theorem untaken (apart : Apart properties others) {property : Property Schema}
    (member : property ∈ properties) (renamed : property.Renamed) {key : String}
    (own : readKey true property = key ∨ property.name = key) :
    isTaken true others key = false := by
  refine List.any_eq_false.mpr (fun other member' taken => ?_)
  have agree := apart.agree property member other member'
  have clash : property.name ≠ other.name := fun same =>
    apart.single property member other member' same renamed
  simp only [Bool.or_eq_true, decide_eq_true_eq] at taken
  rcases own with rfl | rfl <;> rcases taken with read | named
  · exact clash (agree.mpr read.symm)
  · by_cases plain : readKey true other = other.name
    · exact clash (agree.mpr (named.symm.trans plain.symm))
    · exact apart.free' property member other member' plain named.symm
  · exact apart.free property member other member' renamed read
  · exact clash named.symm

/-- A key that both objects take is the name of a property of either, which is not renamed. -/
theorem shared (apart : Apart properties others) {property other : Property Schema}
    (member : property ∈ properties) (member' : other ∈ others) {key : String}
    (own : readKey true property = key ∨ property.name = key)
    (their : readKey true other = key ∨ other.name = key) :
    (readKey true property = key ∧ property.name = key) ∧
      (readKey true other = key ∧ other.name = key) := by
  have plain : readKey true property = property.name := by
    by_contra renamed
    cases (apart.untaken member renamed own).symm.trans (Validator.isTaken_of_mem member' their)
  have plain' : readKey true other = other.name := by
    by_contra renamed
    cases (apart.symm.untaken member' renamed their).symm.trans
      (Validator.isTaken_of_mem member own)
  rw [plain, or_self] at own
  rw [plain', or_self] at their
  exact ⟨⟨plain.trans own, own⟩, plain'.trans their, their⟩

end Apart

end Property

namespace Schema

/-- What judges fields without a declared property. -/
def otherBody? : Additional Schema → Option Schema
  | .each body => some body
  | _ => none

/-- What judges the field of a name, in an object with these properties. -/
def bodyAt? (properties : List (Property Schema)) (additional : Additional Schema)
    (name : String) : Option Schema :=
  match Property.find? properties name with
  | some property => some property.body
  | none => otherBody? additional

section

variable {properties : List (Property Schema)} {additional : Additional Schema}

/-- A declared property judges the field of its name. -/
theorem bodyAt?_declared (names : (Property.names properties).Nodup) {property : Property Schema}
    (member : property ∈ properties) :
    bodyAt? properties additional property.name = some property.body := by
  rw [bodyAt?, Property.find?_of_mem names member]

/-- What judges other fields judges a field whose name is not declared. -/
theorem bodyAt?_other {name : String} (undeclared : ∀ property ∈ properties, property.name ≠ name) :
    bodyAt? properties additional name = otherBody? additional := by
  have absent : Property.find? properties name = none :=
    List.find?_eq_none.mpr (fun property member => by simpa using undeclared property member)
  rw [bodyAt?, absent]

/-- What judges a field is one of the bodies. -/
theorem mem_of_bodyAt? {name : String} {body : Schema}
    (some : bodyAt? properties additional name = some body) :
    body ∈ properties.map Property.body ++ additional.bodies := by
  rw [bodyAt?] at some
  split at some
  · next property found =>
    obtain rfl := Option.some.inj some
    exact additional.declared_mem (List.mem_of_find?_eq_some found)
  · cases additional with
    | each body' =>
      obtain rfl := Option.some.inj some
      exact Additional.each_mem properties rfl
    | _ => cases some

end

end Schema

/-! ## Panels -/

/-- The schemas that judge one value. -/
abbrev Panel :=
  Schema → Prop

/-- The panel with one more schema. -/
def Panel.add (panel : Panel) (schema : Schema) : Panel := fun judge =>
  panel judge ∨ judge = schema

/-- One that is in the panel already adds nothing to it. -/
theorem Panel.add_of_own {panel : Panel} {schema : Schema} (own : panel schema) :
    panel.add schema = panel := by
  funext judge
  exact propext (or_iff_left_of_imp (fun same => same ▸ own))

namespace Context

variable (context : Context)

/-- The schemas that a schema hands the value on to. -/
def delegates (value : Value) : Schema → List Schema
  | .union _ choices =>
    match Discriminator.find? context.definitions choices with
    | none => choices
    | some discriminator =>
      match context.selection? discriminator choices value with
      | some choice => [choice]
      | none => discriminator.aside choices
  | .intersection _ components => components
  | .named ref =>
    if (context.definitions ref).isContainer then [] else [context.definitions ref]
  | _ => []

/-- A schema leads to another when it hands the value on to it, in any number of steps. -/
def Leads (value : Value) : Schema → Schema → Prop :=
  Relation.ReflTransGen (fun outer inner => inner ∈ context.delegates value outer)

/-- The schemas that come to judge the value when those of the panel do. -/
def Calls (panel : Panel) (value : Value) (schema : Schema) : Prop :=
  ∃ judge, panel judge ∧ context.Leads value judge schema

/-- The panel of the items of an array that these judge. -/
def panelOfItems (called : Panel) : Panel := fun body =>
  ∃ judge node least most, called judge ∧ context.shape judge = .array node body least most

/-- The panel of the field that is called by the name in the end, when these judge. -/
def panelAt (called : Panel) (name : String) : Panel := fun body =>
  ∃ judge node properties additional, called judge ∧
    context.shape judge = .object node properties additional ∧
    Schema.bodyAt? properties additional name = some body

/-- Where a field is that was read under `outer` and is called `inner` in the end, when the
object carries the tags: it is read by a property, or all that judge leave it where it is. -/
inductive Lies (called : Panel) (tags : Tags) : String → String → String → Prop
  | declared {judge : Schema} {node : Nat} {properties : List (Property Schema)}
      {additional : Additional Schema} {property : Property Schema} (member : called judge)
      (shaped : context.shape judge = .object node properties additional)
      (listed : property ∈ properties) :
      Lies called tags property.name (readKey true property)
        (readKey (!tags.has judge) property)
  | other {key : String}
      (free : ∀ judge node properties additional, called judge →
        context.shape judge = .object node properties additional →
        isTaken true properties key = false) : Lies called tags key key key

/-- The parts of a value, each with its panel. -/
inductive Inside (panel : Panel) : Value → Panel → Value → Prop
  | item {content : Identity} {items : List Value} {tags : Tags} {item : Value}
      (member : item ∈ items) :
      Inside panel (.array content items tags)
        (context.panelOfItems (context.Calls panel (.array content items tags))) item
  | field {content : Identity} {fields : Fields Value} {tags : Tags} {inner outer key : String}
      (lies : context.Lies (context.Calls panel (.object content fields tags)) [] inner outer
        key) :
      Inside panel (.object content fields tags)
        (context.panelAt (context.Calls panel (.object content fields tags)) inner)
        (fields.lookup outer)

/-- It holds of the value and its panel, of its parts and theirs, and so on. -/
def Everywhere (holds : Panel → Value → Prop) (panel : Panel) (value : Value) : Prop :=
  ∀ place : Panel × Value, Relation.ReflTransGen (fun outer inner : Panel × Value =>
    context.Inside outer.1 outer.2 inner.1 inner.2) (panel, value) place → holds place.1 place.2

variable {context} {panel panel' : Panel} {value value' : Value} {schema inner : Schema}

/-- What a schema hands the value on to is a facet of it. -/
theorem delegate_facet (member : inner ∈ context.delegates value schema) :
    inner ∈ schema.facets context.definitions := by
  cases schema with
  | union node choices =>
    rw [delegates] at member
    split at member
    · exact member
    · next discriminator decided =>
      split at member
      · next choice selected =>
        rw [List.mem_singleton.mp member]
        cases value with
        | object content fields tags => exact Discriminator.mem_of_chosen? selected
        | _ => cases selected
      · exact Discriminator.mem_of_mem_aside member
  | intersection node components => exact member
  | named ref =>
    rw [delegates] at member
    split at member
    · cases member
    · exact member
  | _ => cases member

/-- A panel calls its own schemas. -/
theorem Calls.own (member : panel schema) : context.Calls panel value schema :=
  ⟨schema, member, Relation.ReflTransGen.refl⟩

/-- A panel calls what those that it calls hand the value on to. -/
theorem Calls.delegate (called : context.Calls panel value schema)
    (member : inner ∈ context.delegates value schema) : context.Calls panel value inner := by
  obtain ⟨judge, listed, leads⟩ := called
  exact ⟨judge, listed, leads.tail member⟩

/-- A panel calls what those lead to that it calls. -/
theorem Calls.leads (called : context.Calls panel value schema)
    (leads : context.Leads value schema inner) : context.Calls panel value inner := by
  obtain ⟨judge, listed, further⟩ := called
  exact ⟨judge, listed, further.trans leads⟩

/-- Schemas that a panel calls already call no others. -/
theorem calls_eq (more : ∀ judge, panel judge → panel' judge)
    (called : ∀ judge, panel' judge → context.Calls panel value judge) :
    context.Calls panel' value = context.Calls panel value := by
  funext schema
  refine propext ⟨?_, ?_⟩
  · rintro ⟨judge, listed, leads⟩
    exact (called judge listed).leads leads
  · rintro ⟨judge, listed, leads⟩
    exact ⟨judge, more judge listed, leads⟩

/-- A schema that the panel calls already calls no others. -/
theorem calls_add (called : context.Calls panel value schema) :
    context.Calls (panel.add schema) value = context.Calls panel value := by
  refine calls_eq (fun _ => .inl) ?_
  rintro judge (member | rfl)
  · exact .own member
  · exact called

/-- A field lies where a property reads it, or where it was to begin with. -/
theorem Lies.how {called : Panel} {tags : Tags} {inner outer key : String}
    (lies : context.Lies called tags inner outer key) :
    (∃ judge node properties additional, called judge ∧
        context.shape judge = .object node properties additional ∧
        ∃ property ∈ properties, property.name = inner ∧ readKey true property = outer ∧
          readKey (!tags.has judge) property = key) ∨
      (inner = key ∧ outer = key ∧ ∀ judge node properties additional, called judge →
        context.shape judge = .object node properties additional →
        isTaken true properties key = false) := by
  cases lies with
  | declared member shaped listed =>
    exact .inl ⟨_, _, _, _, member, shaped, _, listed, rfl, rfl, rfl⟩
  | other free => exact .inr ⟨rfl, rfl, free⟩

/-- Where a field lies depends on the tags of object types. -/
theorem Lies.of_tags {called : Panel} {tags tags' : Tags} {inner outer key : String}
    (lies : context.Lies called tags inner outer key)
    (same : ∀ judge node properties additional,
      context.shape judge = .object node properties additional →
      tags'.has judge = tags.has judge) : context.Lies called tags' inner outer key := by
  cases lies with
  | declared member shaped listed =>
    rw [← same _ _ _ _ shaped]
    exact .declared member shaped listed
  | other free => exact .other free

/-- Where nothing has been renamed, a field lies where it is read. -/
theorem Lies.untouched {called : Panel} {tags : Tags} {inner outer key : String}
    (lies : context.Lies called tags inner outer key) :
    context.Lies called [] inner outer outer := by
  cases lies with
  | declared member shaped listed => exact .declared member shaped listed
  | other free => exact .other free

section

variable {holds : Panel → Value → Prop}

/-- What holds everywhere holds here. -/
theorem Everywhere.here (everywhere : context.Everywhere holds panel value) : holds panel value :=
  everywhere (panel, value) Relation.ReflTransGen.refl

/-- What holds everywhere holds everywhere inside. -/
theorem Everywhere.inside (everywhere : context.Everywhere holds panel value)
    (inside : context.Inside panel value panel' value') :
    context.Everywhere holds panel' value' :=
  fun place reached => everywhere place (Relation.ReflTransGen.head inside reached)

/-- What judges the parts depends on the schemas that the panel calls. -/
theorem Inside.of_calls {part : Value} {inner : Panel}
    (same : context.Calls panel' value = context.Calls panel value)
    (inside : context.Inside panel' value inner part) :
    context.Inside panel value inner part := by
  cases inside with
  | item member =>
    rw [same]
    exact .item member
  | field lies =>
    rw [same] at lies ⊢
    exact .field lies

/-- What holds of the parts everywhere holds for every panel that calls the same schemas. -/
theorem Everywhere.of_calls (everywhere : context.Everywhere holds panel value)
    (same : context.Calls panel' value = context.Calls panel value)
    (here : holds panel value → holds panel' value) : context.Everywhere holds panel' value := by
  intro place reached
  rcases Relation.ReflTransGen.cases_head reached with rfl | ⟨next, inside, further⟩
  · exact here everywhere.here
  · exact everywhere place (Relation.ReflTransGen.head (inside.of_calls same) further)

section

variable {kept : Schema → Prop}

/-- What holds throughout the schemas of a panel holds throughout those that it calls. -/
theorem Calls.throughout
    (everywhere : ∀ judge, panel judge → judge.Throughout context.definitions kept)
    (called : context.Calls panel value schema) : schema.Throughout context.definitions kept := by
  obtain ⟨judge, listed, leads⟩ := called
  induction leads with
  | refl => exact everywhere judge listed
  | tail _ member ih => exact ih.facet (delegate_facet member)

/-- What holds throughout the schemas of a panel holds throughout those of the panels of parts. -/
theorem Inside.throughout {part : Value}
    (everywhere : ∀ judge, panel judge → judge.Throughout context.definitions kept)
    (inside : context.Inside panel value panel' part) :
    ∀ judge, panel' judge → judge.Throughout context.definitions kept := by
  cases inside with
  | item member =>
    rintro body ⟨judge, _, _, _, called, shaped⟩
    refine (called.throughout everywhere).reached (reaches_content ?_)
    rw [shaped]
    exact Schema.items_mem_contents
  | field lies =>
    rintro body ⟨judge, _, _, _, called, shaped, some⟩
    refine (called.throughout everywhere).reached (reaches_content ?_)
    rw [shaped]
    exact Schema.mem_of_bodyAt? some

end

end

end Context

end Conform
