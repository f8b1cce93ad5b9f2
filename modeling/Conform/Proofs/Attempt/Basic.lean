import Conform.Formats
import Conform.Membership
import Conform.Proofs.Schema.Reach
import Mathlib.Tactic.MkIffOfInductiveProp

/-!
# Judging values by schemas

A context fixes what the judgement of a value by a schema depends on: what names stand
for, the formats, and the options. An attempt runs the validator of a schema with every
name bound to its definition. A schema judges a value with a verdict when some attempt
ends with it.

This module has the equations of attempts, one for each kind of schema. A container may be
judged under a tag that is not its own, which is how a name judges by a definition that is
directly a container.

The equations are stated for runs whose validators were made at several moments, while some
names were not defined yet. An attempt is such a run with one moment.
-/

namespace Conform

/-! ## Bodies of properties -/

/-- The property with another body. -/
def Property.mapBody {α β : Type} (change : α → β) (property : Property α) : Property β :=
  ⟨property.name, property.required, property.wireName, change property.body⟩

/-- What becomes of other properties, with another body. -/
def Additional.mapBody {α β : Type} (change : α → β) : Additional α → Additional β
  | .keep => .keep
  | .deny => .deny
  | .each body => .each (change body)

namespace Schema

/-- Validators are made one by one. -/
theorem validators_eq_map (definitions : Definitions) (schemas : List Schema) :
    validators definitions schemas = schemas.map (validator definitions) := by
  induction schemas with
  | nil => rfl
  | cons first rest ih => rw [validators, ih, List.map_cons]

/-- The validators of properties are made one by one. -/
theorem propertyValidators_eq_map (definitions : Definitions)
    (properties : List (Property Schema)) :
    propertyValidators definitions properties =
      properties.map (Property.mapBody (validator definitions)) := by
  induction properties with
  | nil => rfl
  | cons first rest ih => rw [propertyValidators, ih, List.map_cons]; rfl

/-- What judges other fields is made as all schemas are. -/
theorem additionalValidator_eq_map (definitions : Definitions) (additional : Additional Schema) :
    additionalValidator definitions additional =
      additional.mapBody (validator definitions) := by
  cases additional <;> rfl

/-- The name that a schema's validator stands for is that of the schema, at every moment. -/
theorem name?_validator (schema : Schema) (earlier later : Definitions) :
    (schema.validator earlier).name? = (schema.validator later).name? := by
  have union : ∀ (definitions : Definitions) (choices : List Schema) (options : List Validator),
      (Validator.ofUnion definitions choices options).name? = none := by
    intro definitions choices options
    unfold Validator.ofUnion
    split <;> rfl
  cases schema with
  | union node choices => rw [validator, validator, union, union]
  | _ => rfl

/-- Only names have validators that stand for a name. -/
theorem eq_named_of_name? {schema : Schema} {definitions : Definitions} {ref : NamedRef}
    (named : (schema.validator definitions).name? = some ref) : schema = .named ref := by
  cases schema with
  | named other =>
    obtain rfl := Option.some.inj named
    rfl
  | union node choices =>
    rw [validator, Validator.ofUnion] at named
    split at named <;> cases named
  | _ => cases named

/-! ## Conditions on nodes -/

/-- The declared properties of an object have distinct names. -/
def DistinctNames : Schema → Prop
  | .object _ properties _ => (Property.names properties).Nodup
  | _ => True

/-- The format that a string node names is a built-in one, and known under its name. -/
def KnownFormats (format : String → Option Validator) : Schema → Prop
  | .string _ rules => ∀ name, rules.format = some name →
      ∃ inner, Fields.get? name Formats.builtin = some inner ∧ format name = some inner
  | _ => True

/-- What the builders of schemas see to, and only built-in formats. -/
@[mk_iff]
structure WellFormed (format : String → Option Validator) (node : Schema) : Prop where
  distinctNames : node.DistinctNames
  knownFormats : node.KnownFormats format

/-- The node is an array or an object. -/
def isContainer : Schema → Bool
  | .array _ _ _ _ => true
  | .object _ _ _ => true
  | _ => false

/-- The node judges a value without regard to other nodes. -/
def isLeaf : Schema → Bool
  | .array _ _ _ _ => false
  | .object _ _ _ => false
  | .union _ _ => false
  | .intersection _ _ => false
  | .named _ => false
  | _ => true

end Schema

/-- A built-in format lets strings of some form through as they are. -/
theorem Formats.builtin_textForm {name : String} {inner : Validator}
    (found : Fields.get? name Formats.builtin = some inner) :
    ∃ form accepts, inner = .textForm form accepts := by
  have member := Fields.mem_of_get? found
  simp only [Formats.builtin, List.mem_cons, Prod.mk.injEq, List.not_mem_nil, or_false] at member
  rcases member with ⟨_, rfl⟩ | ⟨_, rfl⟩ | ⟨_, rfl⟩ <;> exact ⟨_, _, rfl⟩

/-! ## Contexts -/

/-- What the judgement of a value by a schema depends on. -/
structure Context where
  /-- What names stand for. -/
  definitions : Definitions
  /-- The formats by name. -/
  format : String → Option Validator
  /-- The options. -/
  settings : Options

namespace Context

/-- What runs see: every name is bound to the validator of its definition. -/
def surroundings (context : Context) : Surroundings :=
  .ofDefinitions context.definitions context.format

/-- A run of a schema's validator. -/
def attempt (context : Context) (fuel : Nat) (schema : Schema) (place : Identity)
    (value : Value) : Attempt :=
  Validator.run context.surroundings fuel (schema.validator context.definitions)
    context.settings place value

/-- A run of a schema's validator that gives containers a tag of its own choice. -/
def attemptAs (context : Context) (tag : Schema) (fuel : Nat) (schema : Schema)
    (place : Identity) (value : Value) : Attempt :=
  Validator.run context.surroundings fuel
    (match schema with
    | .array _ items least most =>
      .array (items.validator context.definitions) least most (some tag)
    | .object _ properties additional =>
      .ofObject context.definitions properties additional [] tag
    | other => other.validator context.definitions)
    context.settings place value

/-- Some attempt at judging the value by the schema ends with the verdict. -/
def Judges (context : Context) (schema : Schema) (value : Value) (verdict : Verdict) : Prop :=
  ∃ fuel place, context.attempt fuel schema place value = .ok verdict

/-- The property of nodes that every judgement of this context relies on. -/
abbrev Sound (context : Context) (schema : Schema) : Prop :=
  schema.Throughout context.definitions (Schema.WellFormed context.format)

/-! ## Validators made at several moments -/

end Context

namespace Schema

/-- Every union in the schema has the discriminator by the earlier definitions that it has by
the later ones. What names stand for is not looked at. -/
def Decided (earlier later : Definitions) (schema : Schema) : Prop :=
  schema.Throughout (fun _ => .unknown) (fun node => ∀ number choices,
    node = .union number choices →
      Discriminator.find? earlier choices = Discriminator.find? later choices)

/-- A schema is decided alike by the same definitions. -/
theorem Decided.refl (definitions : Definitions) (schema : Schema) :
    schema.Decided definitions definitions :=
  fun _ _ _ _ _ => rfl

/-- Every name that the schema reaches is among the names. -/
def Within (definitions : Definitions) (names : NamedRef → Prop) (schema : Schema) : Prop :=
  schema.Throughout definitions (fun node => ∀ ref, node = .named ref → names ref)

/-- A part is within the names, also where what names stand for is not looked at. -/
theorem Within.part_unnamed {definitions : Definitions} {names : NamedRef → Prop}
    {schema inner : Schema} (within : schema.Within definitions names)
    (member : inner ∈ schema.parts (fun _ => .unknown)) : inner.Within definitions names := by
  cases schema with
  | named ref =>
    obtain rfl := List.mem_singleton.mp member
    exact throughout_of_closed [.unknown] (by simp [parts, facets, contents]) (by simp) (.head _)
  | _ => exact within.part member

end Schema

namespace Context

/-- What runs see when validators were made at several moments, each from the definitions of
its moment. The names that the supply answers for stood then for what they stand for now. -/
structure Supply (context : Context) where
  /-- What runs see. -/
  surroundings : Surroundings
  /-- The moments, by their definitions. -/
  moments : Definitions → Prop
  /-- The names that the supply answers for. -/
  names : NamedRef → Prop
  format : surroundings.format = context.format
  bound : ∀ {ref validator}, names ref → surroundings.bound ref = some validator →
    ∃ earlier, moments earlier ∧ earlier ref = context.definitions ref ∧
      (context.definitions ref).Decided earlier context.definitions ∧
      validator = .ofName earlier ref

/-- Every name is bound, and all validators are made from what names stand for now. -/
def own (context : Context) : context.Supply where
  surroundings := context.surroundings
  moments := (· = context.definitions)
  names _ := True
  format := rfl
  bound _ found := ⟨context.definitions, rfl, rfl, .refl _ _, (Option.some.inj found).symm⟩

namespace Supply

variable {context : Context} (supply : context.Supply)

/-- The schema's validator was made at one of the moments, when its unions had the
discriminators that they have now, and the supply answers for the names it reaches. -/
structure Made (earlier : Definitions) (schema : Schema) : Prop where
  moment : supply.moments earlier
  decided : schema.Decided earlier context.definitions
  within : schema.Within context.definitions supply.names

/-- A run of the validator that the schema had at a moment. -/
def attempt (earlier : Definitions) (fuel : Nat) (schema : Schema) (place : Identity)
    (value : Value) : Attempt :=
  Validator.run supply.surroundings fuel (schema.validator earlier) context.settings place value

/-- A run of the validator that the schema had at a moment, when it gives containers a tag of
its own choice. -/
def attemptAs (earlier : Definitions) (tag : Schema) (fuel : Nat) (schema : Schema)
    (place : Identity) (value : Value) : Attempt :=
  Validator.run supply.surroundings fuel
    (match schema with
    | .array _ items least most =>
      .array (items.validator earlier) least most (some tag)
    | .object _ properties additional =>
      .ofObject earlier properties additional [] tag
    | other => other.validator earlier)
    context.settings place value

variable {supply} {earlier : Definitions} {schema inner : Schema}

/-- What a supply has made of a schema, it has made of the parts, those behind names excepted. -/
theorem Made.part (made : supply.Made earlier schema)
    (member : inner ∈ schema.parts (fun _ => .unknown)) : supply.Made earlier inner :=
  ⟨made.moment, made.decided.part member, made.within.part_unnamed member⟩

/-- What a supply has made of a schema, it has made of the contents. -/
theorem Made.content (made : supply.Made earlier schema) (member : inner ∈ schema.contents) :
    supply.Made earlier inner :=
  made.part (List.mem_append_right _ member)

/-- The discriminator of a union that has been made is that of the supply. -/
theorem Made.find?_eq {node : Nat} {choices : List Schema}
    (made : supply.Made earlier (.union node choices)) :
    Discriminator.find? earlier choices = Discriminator.find? context.definitions choices :=
  made.decided.here node choices rfl

variable (supply earlier) (fuel : Nat) (tag : Schema) (place : Identity) (value : Value)

/-- An attempt has no name to carry but the schema itself. -/
theorem attempt_eq_attemptAs (schema : Schema) :
    supply.attempt earlier fuel schema place value =
      supply.attemptAs earlier schema fuel schema place value := by
  cases schema <;> rfl

/-- The check of an array judges its items. -/
theorem attemptAs_array (node : Nat) (items : Schema) (least most : Option Nat) :
    supply.attemptAs earlier tag (fuel + 1) (.array node items least most) place value =
      Validator.checkArray
        (fun index item => supply.attempt earlier fuel items (place.part index) item)
        least most (some tag) context.settings place value := rfl

/-- The check of an object judges its properties. -/
theorem attemptAs_object (node : Nat) (properties : List (Property Schema))
    (additional : Additional Schema) :
    supply.attemptAs earlier tag (fuel + 1) (.object node properties additional) place value =
      Validator.checkObject
        (fun index inner item => Validator.run supply.surroundings fuel inner context.settings
          ((place.part 0).part index) item)
        (fun index inner item => Validator.run supply.surroundings fuel inner context.settings
          ((place.part 1).part index) item)
        (properties.map (Property.mapBody (Schema.validator earlier)))
        (Property.checkOrder earlier properties [])
        (additional.mapBody (Schema.validator earlier))
        tag context.settings place value := by
  rw [← Schema.propertyValidators_eq_map, ← Schema.additionalValidator_eq_map]
  rfl

/-- An intersection passes the value through its components. -/
theorem attempt_intersection (node : Nat) (components : List Schema) :
    supply.attempt earlier (fuel + 1) (.intersection node components) place value =
      Validator.checkComponents
        (fun position inner item => Validator.run supply.surroundings fuel inner
          context.settings (place.part position) item)
        1 (components.map (Schema.validator earlier)) value [] := by
  rw [← Schema.validators_eq_map]
  rfl

/-- A union is decided by its discriminator when it has one. -/
theorem attempt_union_some {node : Nat} {choices : List Schema} {discriminator : Discriminator}
    (decided : Discriminator.find? earlier choices = some discriminator) :
    supply.attempt earlier (fuel + 1) (.union node choices) place value =
      Validator.checkDispatch
        (fun inner => Validator.run supply.surroundings fuel inner context.settings place value)
        discriminator choices (choices.map (Schema.validator earlier))
        context.settings value := by
  rw [← Schema.validators_eq_map]
  simp only [attempt, Schema.validator, Validator.ofUnion, decided, Validator.run]

/-- A union is decided by trial when it has no discriminator. -/
theorem attempt_union_none {node : Nat} {choices : List Schema}
    (undecided : Discriminator.find? earlier choices = none) :
    supply.attempt earlier (fuel + 1) (.union node choices) place value =
      Validator.checkOneOf
        (fun position inner => Validator.run supply.surroundings fuel inner context.settings
          (place.part position) value)
        (choices.map (Schema.validator earlier)) value := by
  rw [← Schema.validators_eq_map]
  simp only [attempt, Schema.validator, Validator.ofUnion, undecided, Validator.run]

/-- A name that is not bound stops the run. -/
theorem attempt_named_unbound {ref : NamedRef} (unbound : supply.surroundings.bound ref = none) :
    supply.attempt earlier (fuel + 1) (.named ref) place value = .error (.unbound ref) := by
  simp only [attempt, Schema.validator, Validator.run, unbound]

section

variable {ref : NamedRef} {moment : Definitions}
  (found : supply.surroundings.bound ref = some (.ofName moment ref))
  (same : moment ref = context.definitions ref)

include found same

/-- A name whose definition is a container judges as the container does, under its own tag. -/
theorem attempt_named_container (container : (context.definitions ref).isContainer = true) :
    supply.attempt earlier (fuel + 2) (.named ref) place value =
      supply.attemptAs moment (.named ref) fuel (context.definitions ref) place value := by
  simp only [attempt, attemptAs, Schema.validator, Validator.run, found, Validator.ofName, same]
  cases shape : context.definitions ref <;> simp_all [Schema.isContainer]

/-- Any other name judges as its definition does and adds its tag. -/
theorem attempt_named_other (other : (context.definitions ref).isContainer = false) :
    supply.attempt earlier (fuel + 3) (.named ref) place value =
      (match supply.attempt moment fuel (context.definitions ref) place value with
      | .error stop => .error stop
      | .ok verdict => .ok (verdict.map (fun answer => answer.withTags [.named ref]))) := by
  simp only [attempt, Schema.validator, Validator.run, found, Validator.ofName, same]
  cases shape : context.definitions ref <;> rw [shape] at other <;> first | rfl | cases other

/-- A name needs three calls. -/
theorem attempt_named_short {fuel : Nat} (short : fuel < 3) :
    supply.attempt earlier fuel (.named ref) place value = .error .exhausted := by
  rcases fuel with _ | _ | _ | more
  · rfl
  · simp only [attempt, Schema.validator, Validator.run, found]
  · simp only [attempt, Schema.validator, Validator.run, found, Validator.ofName, same]
  · omega

end

/-- What an attempt by a name that ended with a verdict rests on. -/
theorem attempt_named_ok {ref : NamedRef} {verdict : Verdict}
    (made : supply.Made earlier (.named ref))
    (ended : supply.attempt earlier fuel (.named ref) place value = .ok verdict) :
    ∃ moment, supply.Made moment (context.definitions ref) ∧
      (((context.definitions ref).isContainer = true ∧ ∃ less, fuel = less + 2 ∧
          supply.attemptAs moment (.named ref) less (context.definitions ref) place value =
            .ok verdict) ∨
        ((context.definitions ref).isContainer = false ∧ ∃ less inner, fuel = less + 3 ∧
          supply.attempt moment less (context.definitions ref) place value = .ok inner ∧
          verdict = inner.map (fun answer => answer.withTags [.named ref]))) := by
  rcases fuel with _ | less
  · cases ended
  cases binding : supply.surroundings.bound ref with
  | none =>
    rw [attempt_named_unbound _ _ _ _ _ binding] at ended
    cases ended
  | some validator =>
    obtain ⟨moment, among, same, decided, rfl⟩ := supply.bound (made.within.here ref rfl) binding
    refine ⟨moment, ⟨among, decided, made.within.facet Schema.definition_mem_facets⟩, ?_⟩
    rcases less with _ | _ | less
    · rw [attempt_named_short supply earlier place value binding same (by decide)] at ended
      cases ended
    · rw [attempt_named_short supply earlier place value binding same (by decide)] at ended
      cases ended
    cases shape : (context.definitions ref).isContainer with
    | true =>
      rw [attempt_named_container supply earlier _ place value binding same shape] at ended
      exact .inl ⟨rfl, less + 1, rfl, ended⟩
    | false =>
      rw [attempt_named_other supply earlier less place value binding same shape] at ended
      split at ended
      · cases ended
      · next inner judged =>
        exact .inr ⟨rfl, less, inner, rfl, judged, (Except.ok.inj ended).symm⟩

end Supply

/-- What a context makes of its own definitions, it makes of every schema. -/
theorem made_own (context : Context) (schema : Schema) :
    context.own.Made context.definitions schema :=
  ⟨rfl, .refl _ _, fun _ _ _ _ => trivial⟩

/-! ## The equations of attempts -/

variable (context : Context) (fuel : Nat) (tag : Schema) (place : Identity) (value : Value)

/-- An attempt has no name to carry but the schema itself. -/
theorem attempt_eq_attemptAs (schema : Schema) :
    context.attempt fuel schema place value =
      context.attemptAs schema fuel schema place value :=
  context.own.attempt_eq_attemptAs context.definitions fuel place value schema

/-- The check of an array judges its items. -/
theorem attemptAs_array (node : Nat) (items : Schema) (least most : Option Nat) :
    context.attemptAs tag (fuel + 1) (.array node items least most) place value =
      Validator.checkArray (fun index item => context.attempt fuel items (place.part index) item)
        least most (some tag) context.settings place value := rfl

/-- The check of an object judges its properties. -/
theorem attemptAs_object (node : Nat) (properties : List (Property Schema))
    (additional : Additional Schema) :
    context.attemptAs tag (fuel + 1) (.object node properties additional) place value =
      Validator.checkObject
        (fun index inner item => Validator.run context.surroundings fuel inner context.settings
          ((place.part 0).part index) item)
        (fun index inner item => Validator.run context.surroundings fuel inner context.settings
          ((place.part 1).part index) item)
        (properties.map (Property.mapBody (Schema.validator context.definitions)))
        (Property.checkOrder context.definitions properties [])
        (additional.mapBody (Schema.validator context.definitions))
        tag context.settings place value :=
  context.own.attemptAs_object context.definitions fuel tag place value node properties additional

/-- An intersection passes the value through its components. -/
theorem attempt_intersection (node : Nat) (components : List Schema) :
    context.attempt (fuel + 1) (.intersection node components) place value =
      Validator.checkComponents
        (fun position inner item => Validator.run context.surroundings fuel inner
          context.settings (place.part position) item)
        1 (components.map (Schema.validator context.definitions)) value [] :=
  context.own.attempt_intersection context.definitions fuel place value node components

/-- A union is decided by its discriminator when it has one. -/
theorem attempt_union_some {node : Nat} {choices : List Schema} {discriminator : Discriminator}
    (decided : Discriminator.find? context.definitions choices = some discriminator) :
    context.attempt (fuel + 1) (.union node choices) place value =
      Validator.checkDispatch
        (fun inner => Validator.run context.surroundings fuel inner context.settings place value)
        discriminator choices (choices.map (Schema.validator context.definitions))
        context.settings value :=
  context.own.attempt_union_some context.definitions fuel place value decided

/-- A union is decided by trial when it has no discriminator. -/
theorem attempt_union_none {node : Nat} {choices : List Schema}
    (undecided : Discriminator.find? context.definitions choices = none) :
    context.attempt (fuel + 1) (.union node choices) place value =
      Validator.checkOneOf
        (fun position inner => Validator.run context.surroundings fuel inner context.settings
          (place.part position) value)
        (choices.map (Schema.validator context.definitions)) value :=
  context.own.attempt_union_none context.definitions fuel place value undecided

/-- A name whose definition is a container judges as the container does, under its own tag. -/
theorem attempt_named_container {ref : NamedRef}
    (container : (context.definitions ref).isContainer = true) :
    context.attempt (fuel + 2) (.named ref) place value =
      context.attemptAs (.named ref) fuel (context.definitions ref) place value :=
  context.own.attempt_named_container context.definitions fuel place value rfl rfl container

/-- Any other name judges as its definition does and adds its tag. -/
theorem attempt_named_other {ref : NamedRef}
    (other : (context.definitions ref).isContainer = false) :
    context.attempt (fuel + 3) (.named ref) place value =
      (match context.attempt fuel (context.definitions ref) place value with
      | .error stop => .error stop
      | .ok verdict => .ok (verdict.map (fun answer => answer.withTags [.named ref]))) :=
  context.own.attempt_named_other context.definitions fuel place value rfl rfl other

/-- What an attempt by a name that ended with a verdict rests on. -/
theorem attempt_named_ok {ref : NamedRef} {verdict : Verdict}
    (ended : context.attempt fuel (.named ref) place value = .ok verdict) :
    ((context.definitions ref).isContainer = true ∧ ∃ less, fuel = less + 2 ∧
        context.attemptAs (.named ref) less (context.definitions ref) place value =
          .ok verdict) ∨
      ((context.definitions ref).isContainer = false ∧ ∃ less inner, fuel = less + 3 ∧
        context.attempt less (context.definitions ref) place value = .ok inner ∧
        verdict = inner.map (fun answer => answer.withTags [.named ref])) := by
  obtain ⟨moment, ⟨rfl, _⟩, rests⟩ := context.own.attempt_named_ok context.definitions fuel place
    value (context.made_own _) ended
  exact rests

end Context

namespace Shapes

/-- The schemas of shapes are well-formed throughout. -/
theorem sound (format : String → Option Validator) (settings : Options) {schema : Schema}
    (member : schema ∈ nodes) : Context.Sound ⟨definitions, format, settings⟩ schema := by
  refine throughout ?_ member
  simp [nodes, Schema.wellFormed_iff, Schema.DistinctNames, Schema.KnownFormats,
    shape, circle, group, Property.names]

end Shapes

end Conform
