import Conform.Proofs.Attempt.Checks
import Conform.Proofs.Attempt.Trial
import Conform.Proofs.Discriminator.Choice

/-!
# One step of a judgement

A schema judges a value in one step from the judgements that its parts make: a container
from those of its items or properties, a union from those of its options, an intersection
from those of its components, and a name from that of its definition, unless it judges as
a container itself. Every verdict that an attempt ends with comes by such a step from
verdicts of attempts with less fuel, so what one step preserves holds of every verdict.
-/

namespace Conform

namespace Context

/-- The schema that judges in the place of another: a name judges as its definition does
when that is a container. -/
def shape (context : Context) : Schema → Schema
  | .named ref =>
    if (context.definitions ref).isContainer then context.definitions ref else .named ref
  | schema => schema

/-- A leaf stands for itself. -/
theorem shape_of_isLeaf {context : Context} {schema : Schema} (leaf : schema.isLeaf = true) :
    context.shape schema = schema := by
  cases schema <;> first | rfl | cases leaf

/-- What judges as a container is that container behind its name. -/
theorem resolve_of_container {context : Context} {schema : Schema}
    (container : (context.shape schema).isContainer = true) :
    schema.resolve context.definitions = context.shape schema := by
  cases schema with
  | named ref =>
    cases direct : (context.definitions ref).isContainer with
    | true =>
      rw [shape, if_pos direct]
      change Schema.follow context.definitions 63 (context.definitions ref) =
        context.definitions ref
      generalize context.definitions ref = node at direct
      cases node <;> first | rfl | cases direct
    | false =>
      rw [shape, direct] at container
      cases container
  | _ => rfl

/-- What judges as an object has the properties of that object. -/
theorem properties?_of_shape {context : Context} {schema : Schema} {node : Nat}
    {properties : List (Property Schema)} {additional : Additional Schema}
    (shaped : context.shape schema = .object node properties additional) :
    schema.properties? context.definitions = some properties := by
  rw [Schema.properties?, resolve_of_container (by rw [shaped]; rfl), shaped]

/-- What the options amount to when all of them are tried. -/
def tallied (context : Context) (options : List Schema) (value : Value)
    (verdicts : List Verdict) : Verdict :=
  (Validator.tally value 1 (options.map (Schema.validator context.definitions)) verdicts).verdict

/-- The value at the key by which a union decides. -/
def decisive (context : Context) (discriminator : Discriminator) (choices : List Schema)
    (fields : Fields Value) (tags : Tags) : Value :=
  fields.lookup (Validator.dispatchKey discriminator choices context.settings tags)

section

variable (context : Context) (judges : Schema → Value → Verdict → Prop)

/-- How a union judges by its options. -/
inductive UnionStep (choices : List Schema) (value : Value) : Verdict → Prop
  | selected {discriminator : Discriminator} {content : Identity} {fields : Fields Value}
      {tags : Tags} {choice : Schema} {verdict : Verdict}
      (decided : Discriminator.find? context.definitions choices = some discriminator)
      (object : value = .object content fields tags)
      (chosen : discriminator.chosen? choices
        (context.decisive discriminator choices fields tags) = some choice)
      (judged : judges choice value verdict) : UnionStep choices value verdict
  | unknown {discriminator : Discriminator} {content : Identity} {fields : Fields Value}
      {tags : Tags}
      (decided : Discriminator.find? context.definitions choices = some discriminator)
      (complete : discriminator.rest = [])
      (object : value = .object content fields tags)
      (unchosen : discriminator.chosen? choices
        (context.decisive discriminator choices fields tags) = none) (found : String) :
      UnionStep choices value (.refuseAt discriminator.key
        (.badDiscriminator discriminator.key found discriminator.literals))
  | scalar {discriminator : Discriminator}
      (decided : Discriminator.find? context.definitions choices = some discriminator)
      (complete : discriminator.rest = []) (other : value.kind ≠ .object) :
      UnionStep choices value (.refuse (.expected "object" value.kind))
  | aside {discriminator : Discriminator} {verdicts : List Verdict} {verdict : Verdict}
      (decided : Discriminator.find? context.definitions choices = some discriminator)
      (unchosen : ∀ content fields tags, value = .object content fields tags →
        discriminator.chosen? choices (context.decisive discriminator choices fields tags) = none)
      (judged : List.Forall₂ (fun choice verdict => judges choice value verdict)
        (discriminator.aside choices) verdicts)
      (amounts : context.tallied (discriminator.aside choices) value verdicts = verdict) :
      UnionStep choices value verdict
  | trial {verdicts : List Verdict} {verdict : Verdict}
      (undecided : Discriminator.find? context.definitions choices = none)
      (judged : List.Forall₂ (fun choice verdict => judges choice value verdict)
        choices verdicts)
      (amounts : context.tallied choices value verdicts = verdict) :
      UnionStep choices value verdict

/-- How a schema judges by its parts. -/
inductive Step (schema : Schema) (value : Value) : Verdict → Prop
  | leaf {verdict : Verdict} (leaf : schema.isLeaf = true)
      (judged : context.Judges schema value verdict) : Step schema value verdict
  | notItems {node : Nat} {items : Schema} {least most : Option Nat}
      (shape : context.shape schema = .array node items least most)
      (none : Validator.itemsOf? context.settings value = none) :
      Step schema value (.refuse (.expected "array" value.kind))
  | miscounted {node : Nat} {items : Schema} {least most : Option Nat} {list : List Value}
      {reason : Reason} (shape : context.shape schema = .array node items least most)
      (found : Validator.itemsOf? context.settings value = some list)
      (count : Validator.countReason? least most list.length = some reason) :
      Step schema value (.refuse reason)
  | items {node : Nat} {items : Schema} {least most : Option Nat} {list answers : List Value}
      (place : Identity) (shape : context.shape schema = .array node items least most)
      (found : Validator.itemsOf? context.settings value = some list)
      (count : Validator.countReason? least most list.length = none)
      (judged : List.Forall₂ (fun item answer => judges items item (.accepted answer))
        list answers) :
      Step schema value (.accepted (.array place answers (value.tags.merge [schema])))
  | itemRefused {node : Nat} {items : Schema} {least most : Option Nat} {list : List Value}
      {item : Value} {causes : List Violation} (index : Nat)
      (shape : context.shape schema = .array node items least most)
      (found : Validator.itemsOf? context.settings value = some list)
      (count : Validator.countReason? least most list.length = none)
      (there : list[index]? = some item) (judged : judges items item (.rejected causes)) :
      Step schema value
        (.rejected (causes.map (Violation.under (Violation.indexSegment index))))
  | notObject {node : Nat} {properties : List (Property Schema)}
      {additional : Additional Schema}
      (shape : context.shape schema = .object node properties additional)
      (other : value.kind ≠ .object) : Step schema value (.refuse (.expected "object" value.kind))
  | fields {node : Nat} {properties : List (Property Schema)} {additional : Additional Schema}
      {content : Identity} {fields answers : Fields Value} {tags : Tags} (place : Identity)
      (shape : context.shape schema = .object node properties additional)
      (object : value = .object content fields tags)
      (judged : Validator.FieldsStep judges
        (context.settings.convertFromNetwork && !tags.has schema)
        (context.settings.unknownField = .drop) properties additional fields answers) :
      Step schema value (.accepted (.object place answers (tags.insert schema)))
  | fieldRefused {node : Nat} {properties : List (Property Schema)}
      {additional : Additional Schema} {content : Identity} {fields : Fields Value} {tags : Tags}
      {violations : List Violation}
      (shape : context.shape schema = .object node properties additional)
      (object : value = .object content fields tags)
      (judged : Validator.FieldsRefused judges
        (context.settings.convertFromNetwork && !tags.has schema)
        (context.settings.unknownField = .drop) properties additional fields violations) :
      Step schema value (.rejected violations)
  | union {node : Nat} {choices : List Schema} {verdict : Verdict}
      (shape : schema = .union node choices)
      (judged : context.UnionStep judges choices value verdict) : Step schema value verdict
  | intersection {node : Nat} {components : List Schema} {verdict : Verdict}
      (shape : schema = .intersection node components)
      (judged : Validator.Chain judges components value [] verdict) : Step schema value verdict
  | named {ref : NamedRef} {inner verdict : Verdict} (shape : schema = .named ref)
      (other : (context.definitions ref).isContainer = false)
      (judged : judges (context.definitions ref) value inner)
      (tagged : inner.map (fun answer => answer.withTags [schema]) = verdict) :
      Step schema value verdict

end

section

variable {context : Context} {judges : Schema → Value → Verdict → Prop} {value answer : Value}

/-- What options amount to when they accept is the answer of one of them. -/
theorem mem_of_tallied {options : List Schema} {verdicts : List Verdict}
    (judged : List.Forall₂ (fun choice verdict => judges choice value verdict) options verdicts)
    (amounts : context.tallied options value verdicts = .accepted answer) :
    ∃ choice ∈ options, judges choice value (.accepted answer) := by
  have lengths := judged.length_eq
  have inside := Validator.mem_of_tally_verdict (by rw [List.length_map, lengths]) amounts
  exact forall₂_mem_right judged inside

/-- What a union accepts is the answer of one of its options. -/
theorem UnionStep.accepted {choices : List Schema}
    (step : context.UnionStep judges choices value (.accepted answer)) :
    ∃ choice ∈ choices, judges choice value (.accepted answer) := by
  cases step with
  | selected decided object chosen judged =>
    exact ⟨_, Discriminator.mem_of_chosen? chosen, judged⟩
  | aside decided unchosen judged amounts =>
    obtain ⟨choice, member, judged⟩ := mem_of_tallied judged amounts
    exact ⟨choice, Discriminator.mem_of_mem_aside member, judged⟩
  | trial undecided judged amounts => exact mem_of_tallied judged amounts

end

/-- What judges as an object accepts an object by its fields. -/
theorem Step.object {context : Context} {judges : Schema → Value → Verdict → Prop}
    {schema : Schema} {value answer : Value} {node : Nat} {properties : List (Property Schema)}
    {additional : Additional Schema}
    (shaped : context.shape schema = .object node properties additional)
    (step : context.Step judges schema value (.accepted answer)) :
    ∃ place content fields answers tags, value = .object content fields tags ∧
      answer = .object place answers (tags.insert schema) ∧
      Validator.FieldsStep judges (context.settings.convertFromNetwork && !tags.has schema)
        (context.settings.unknownField = .drop) properties additional fields answers := by
  cases step with
  | leaf leaf judged =>
    rw [shape_of_isLeaf leaf] at shaped
    subst shaped
    cases leaf
  | items place shape found count judged =>
    rw [shaped] at shape
    cases shape
  | fields place shape object judged =>
    rw [shaped] at shape
    cases shape
    exact ⟨place, _, _, _, _, object, rfl, judged⟩
  | union shape judged =>
    subst shape
    cases shaped
  | intersection shape judged =>
    subst shape
    cases shaped
  | named shape other judged tagged =>
    subst shape
    rw [Context.shape, other] at shaped
    cases shaped

/-- What judges as an array accepts a value by its items. -/
theorem Step.array {context : Context} {judges : Schema → Value → Verdict → Prop}
    {schema : Schema} {value answer : Value} {node : Nat} {items : Schema}
    {least most : Option Nat} (shaped : context.shape schema = .array node items least most)
    (step : context.Step judges schema value (.accepted answer)) :
    ∃ place list answers, Validator.itemsOf? context.settings value = some list ∧
      Validator.countReason? least most list.length = none ∧
      answer = .array place answers (value.tags.merge [schema]) ∧
      List.Forall₂ (fun item answer => judges items item (.accepted answer)) list answers := by
  cases step with
  | leaf leaf judged =>
    rw [shape_of_isLeaf leaf] at shaped
    subst shaped
    cases leaf
  | items place shape found count judged =>
    cases shape.symm.trans shaped
    exact ⟨place, _, _, found, count, rfl, judged⟩
  | fields place shape object judged => cases shape.symm.trans shaped
  | union shape judged =>
    subst shape
    cases shaped
  | intersection shape judged =>
    subst shape
    cases shaped
  | named shape other judged tagged =>
    subst shape
    rw [Context.shape, other] at shaped
    cases shaped

section

variable {context : Context} {judges : Schema → Value → Verdict → Prop} {schema : Schema}
  {node : Nat} {value : Value} {verdict : Verdict} {violations : List Violation}

/-- What judges as an array refuses a value that is none, a count, or an item. -/
theorem Step.array_refused {items : Schema} {least most : Option Nat}
    (shaped : context.shape schema = .array node items least most)
    (step : context.Step judges schema value (.rejected violations)) :
    Validator.itemsOf? context.settings value = none ∨
      ∃ list, Validator.itemsOf? context.settings value = some list ∧
        ((∃ reason, Validator.countReason? least most list.length = some reason) ∨
          ∃ (index : Nat) (item : Value) (causes : List Violation), item ∈ list ∧
            judges items item (.rejected causes) ∧
            violations = causes.map (Violation.under (Violation.indexSegment index))) := by
  cases step with
  | leaf leaf judged =>
    rw [shape_of_isLeaf leaf] at shaped
    subst shaped
    cases leaf
  | notItems shape none => exact .inl none
  | miscounted shape found count =>
    cases shape.symm.trans shaped
    exact .inr ⟨_, found, .inl ⟨_, count⟩⟩
  | itemRefused index shape found count there judged =>
    cases shape.symm.trans shaped
    exact .inr ⟨_, found, .inr ⟨index, _, _, List.mem_of_getElem? there, judged, rfl⟩⟩
  | notObject shape => cases shape.symm.trans shaped
  | fieldRefused shape => cases shape.symm.trans shaped
  | union shape =>
    subst shape
    cases shaped
  | intersection shape =>
    subst shape
    cases shaped
  | named shape other =>
    subst shape
    rw [Context.shape, other] at shaped
    cases shaped

/-- What judges as an object refuses a value that is none, or by its fields. -/
theorem Step.object_refused {properties : List (Property Schema)}
    {additional : Additional Schema}
    (shaped : context.shape schema = .object node properties additional)
    (step : context.Step judges schema value (.rejected violations)) :
    value.kind ≠ .object ∨ ∃ content fields tags, value = .object content fields tags ∧
      Validator.FieldsRefused judges (context.settings.convertFromNetwork && !tags.has schema)
        (context.settings.unknownField = .drop) properties additional fields violations := by
  cases step with
  | leaf leaf judged =>
    rw [shape_of_isLeaf leaf] at shaped
    subst shaped
    cases leaf
  | notItems shape => cases shape.symm.trans shaped
  | miscounted shape => cases shape.symm.trans shaped
  | itemRefused index shape => cases shape.symm.trans shaped
  | notObject shape other => exact .inl other
  | fieldRefused shape object judged =>
    cases shape.symm.trans shaped
    exact .inr ⟨_, _, _, object, judged⟩
  | union shape =>
    subst shape
    cases shaped
  | intersection shape =>
    subst shape
    cases shaped
  | named shape other =>
    subst shape
    rw [Context.shape, other] at shaped
    cases shaped

/-- A schema that is not judged as a container, and is no leaf, judges by its facets. -/
theorem Step.by_facets (outer : schema.isLeaf = false)
    (facets : (context.shape schema).isContainer = false)
    (step : context.Step judges schema value verdict) :
    (∃ node choices, schema = .union node choices ∧
        context.UnionStep judges choices value verdict) ∨
      (∃ node components, schema = .intersection node components ∧
        Validator.Chain judges components value [] verdict) ∨
      ∃ ref inner, schema = .named ref ∧ judges (context.definitions ref) value inner ∧
        inner.map (fun answer => answer.withTags [schema]) = verdict := by
  have apart : ∀ {other : Schema}, context.shape schema = other → other.isContainer = false :=
    fun shape => shape ▸ facets
  cases step with
  | leaf leaf judged => cases outer.symm.trans leaf
  | notItems shape => cases apart shape
  | miscounted shape => cases apart shape
  | items place shape => cases apart shape
  | itemRefused index shape => cases apart shape
  | notObject shape => cases apart shape
  | fields place shape => cases apart shape
  | fieldRefused shape => cases apart shape
  | union shape judged => exact .inl ⟨_, _, shape, judged⟩
  | intersection shape judged => exact .inr (.inl ⟨_, _, shape, judged⟩)
  | named shape other judged tagged => exact .inr (.inr ⟨_, _, shape, judged, tagged⟩)

/-- A union judges by its options. -/
theorem Step.by_options {choices : List Schema}
    (step : context.Step judges (.union node choices) value verdict) :
    context.UnionStep judges choices value verdict := by
  rcases step.by_facets rfl rfl with
    ⟨_, _, same, judged⟩ | ⟨_, _, same, _⟩ | ⟨_, _, same, _⟩ <;> cases same
  exact judged

/-- An intersection judges by its components in turn. -/
theorem Step.by_components {components : List Schema}
    (step : context.Step judges (.intersection node components) value verdict) :
    Validator.Chain judges components value [] verdict := by
  rcases step.by_facets rfl rfl with
    ⟨_, _, same, _⟩ | ⟨_, _, same, judged⟩ | ⟨_, _, same, _⟩ <;> cases same
  exact judged

/-- A name that stands for no container judges as what it stands for, and adds its tag. -/
theorem Step.by_definition {ref : NamedRef} (other : (context.definitions ref).isContainer = false)
    (step : context.Step judges (.named ref) value verdict) :
    ∃ inner, judges (context.definitions ref) value inner ∧
      inner.map (fun answer => answer.withTags [.named ref]) = verdict := by
  have direct : (context.shape (.named ref)).isContainer = false := by
    rw [shape, other]
    rfl
  rcases step.by_facets rfl direct with
    ⟨_, _, same, _⟩ | ⟨_, _, same, _⟩ | ⟨_, inner, same, judged⟩ <;> cases same
  exact ⟨inner, judged⟩

end

/-- A verdict that accepts by another answer accepts the answer it is made from. -/
theorem accepted_of_map {change : Value → Value} {inner : Verdict} {answer : Value}
    (tagged : inner.map change = .accepted answer) :
    ∃ first, inner = .accepted first ∧ answer = change first := by
  cases inner with
  | accepted first => exact ⟨first, rfl, (Verdict.accepted.inj tagged).symm⟩
  | rejected violations => cases tagged

/-! ## Attempts go step by step -/

section

variable {context : Context} {schema : Schema}

/-- A schema reaches what judges in its place. -/
theorem reaches_shape (context : Context) (schema : Schema) :
    schema.Reaches context.definitions (context.shape schema) := by
  unfold shape
  split
  · split
    · exact Relation.ReflTransGen.single (List.mem_append_left _ Schema.definition_mem_facets)
    · exact Relation.ReflTransGen.refl
  · exact Relation.ReflTransGen.refl

/-- A schema reaches the contents of what judges in its place. -/
theorem reaches_content {part : Schema} (member : part ∈ (context.shape schema).contents) :
    schema.Reaches context.definitions part :=
  Relation.ReflTransGen.tail (reaches_shape context schema) (List.mem_append_right _ member)

/-- A schema reaches its facets. -/
theorem reaches_facet {part : Schema} (member : part ∈ schema.facets context.definitions) :
    schema.Reaches context.definitions part :=
  Relation.ReflTransGen.single (List.mem_append_left _ member)

/-- What judges as a container does so with a few calls more. -/
theorem exists_attempt_shape (container : (context.shape schema).isContainer = true) :
    ∃ extra, ∀ fuel place value, context.attempt (fuel + extra) schema place value =
      context.attemptAs schema fuel (context.shape schema) place value := by
  cases schema with
  | named ref =>
    cases direct : (context.definitions ref).isContainer with
    | false =>
      rw [shape, direct] at container
      cases container
    | true =>
      refine ⟨2, fun fuel place value => ?_⟩
      rw [attempt_named_container _ _ _ _ direct, shape, if_pos direct]
  | array node items least most => exact ⟨0, fun _ _ _ => rfl⟩
  | object node properties additional => exact ⟨0, fun _ _ _ => rfl⟩
  | _ => cases container

end

namespace Supply

variable {context : Context} (supply : context.Supply)

/-- Every verdict of an attempt with less fuel, by a node that the schema reaches, is one of
the judgements. -/
def Below (judges : Schema → Value → Verdict → Prop) (schema : Schema) (fuel : Nat) : Prop :=
  ∀ part, schema.Reaches context.definitions part → ∀ earlier, supply.Made earlier part →
    ∀ less < fuel, ∀ place item result,
      supply.attempt earlier less part place item = .ok result → judges part item result

/-- Some attempt at judging the value by a validator of the schema ends with the verdict. -/
def Judges (schema : Schema) (value : Value) (verdict : Verdict) : Prop :=
  ∃ earlier, supply.Made earlier schema ∧
    ∃ fuel place, supply.attempt earlier fuel schema place value = .ok verdict

variable {supply} {judges : Schema → Value → Verdict → Prop} {earlier : Definitions} {fuel : Nat}
  {schema : Schema} {place : Identity} {value : Value} {verdict : Verdict}

/-- What judges as a container judges as that container under its own tag. -/
theorem attempt_container (made : supply.Made earlier schema)
    (container : (context.shape schema).isContainer = true)
    (ended : supply.attempt earlier fuel schema place value = .ok verdict) :
    ∃ moment, supply.Made moment (context.shape schema) ∧ ∃ less < fuel,
      supply.attemptAs moment schema (less + 1) (context.shape schema) place value =
        .ok verdict := by
  cases schema with
  | named ref =>
    obtain ⟨moment, there, ⟨direct, less, rfl, judged⟩ | ⟨other, _⟩⟩ :=
      supply.attempt_named_ok earlier _ _ _ made ended
    · rcases less with _ | less
      · cases judged
      rw [shape, if_pos direct]
      exact ⟨moment, there, less, by omega, judged⟩
    · rw [shape, other] at container
      cases container
  | array node items least most =>
    rcases fuel with _ | less
    · cases ended
    · exact ⟨earlier, made, less, Nat.lt_succ_self less, ended⟩
  | object node properties additional =>
    rcases fuel with _ | less
    · cases ended
    · exact ⟨earlier, made, less, Nat.lt_succ_self less, ended⟩
  | _ => cases container

/-- An attempt by what judges as an array is a step. -/
theorem step_of_array (made : supply.Made earlier schema)
    (below : supply.Below judges schema fuel) {node : Nat} {items : Schema}
    {least most : Option Nat} (shaped : context.shape schema = .array node items least most)
    (ended : supply.attempt earlier fuel schema place value = .ok verdict) :
    context.Step judges schema value verdict := by
  obtain ⟨moment, made, less, fewer, judged⟩ :=
    attempt_container made (by rw [shaped]; rfl) ended
  have reached : schema.Reaches context.definitions items :=
    reaches_content (by rw [shaped]; exact Schema.items_mem_contents)
  rw [shaped] at made
  have among : supply.Made moment items := made.content Schema.items_mem_contents
  rw [shaped, attemptAs_array] at judged
  obtain ⟨none, rfl⟩ | ⟨list, found, ⟨reason, count, rfl⟩ | ⟨count, ⟨answers, rfl, each⟩ |
    ⟨position, item, causes, there, refused, rfl⟩⟩⟩ := Validator.checkArray_judged judged
  · exact .notItems shaped none
  · exact .miscounted shaped found count
  · refine .items place shaped found count (each.imp ?_)
    rintro item answer ⟨index, ended⟩
    exact below items reached moment among less fewer _ _ _ ended
  · exact .itemRefused position shaped found count there
      (below items reached moment among less fewer _ _ _ refused)

/-- An attempt by what judges as an object is a step. -/
theorem step_of_object (made : supply.Made earlier schema)
    (below : supply.Below judges schema fuel) (names : (context.shape schema).DistinctNames)
    {node : Nat} {properties : List (Property Schema)} {additional : Additional Schema}
    (shaped : context.shape schema = .object node properties additional)
    (ended : supply.attempt earlier fuel schema place value = .ok verdict) :
    context.Step judges schema value verdict := by
  obtain ⟨moment, made, less, fewer, judged⟩ :=
    attempt_container made (by rw [shaped]; rfl) ended
  rw [shaped] at names made
  change (Property.names properties).Nodup at names
  rw [shaped, attemptAs_object] at judged
  -- both kinds of parts are run in the same way, at different places
  have ends : ∀ (kind index : Nat) (inner : Validator) (item : Value) (result : Verdict),
      Validator.run supply.surroundings less inner context.settings
        ((place.part kind).part index) item = .ok result →
      ∃ origin, Validator.run supply.surroundings less inner context.settings origin item =
        .ok result :=
    fun _ _ _ _ _ ended => ⟨_, ended⟩
  have steps := Validator.checkObject_judged (ends 0) (ends 1)
    (by simpa [Property.names, Function.comp_def, Property.mapBody] using names)
    (fun index => by rw [Property.mem_checkOrder, List.length_map]) judged
  have weaker : ∀ body ∈ properties.map Property.body ++ additional.bodies, ∀ item result,
      (∃ origin, Validator.run supply.surroundings less (body.validator moment)
        context.settings origin item = .ok result) →
      judges body item result := by
    rintro body member item result ⟨origin, ended⟩
    exact below body (reaches_content (by rw [shaped]; exact member)) moment
      (made.content member) less fewer _ _ _ ended
  rcases steps with
    ⟨other, rfl⟩ | ⟨content, fields, tags, rfl, ⟨answers, rfl, step⟩ | ⟨violations, rfl, refused⟩⟩
  · exact .notObject shaped other
  · exact .fields place shaped rfl (step.of_map weaker)
  · exact .fieldRefused shaped rfl (refused.of_map weaker)

/-- What verdicts amount to does not depend on the moment at which validators were made. -/
theorem tallied_eq (earlier : Definitions) (options : List Schema) (value : Value)
    (verdicts : List Verdict) :
    (Validator.tally value 1 (options.map (Schema.validator earlier)) verdicts).verdict =
      context.tallied options value verdicts := by
  have names : (options.map (Schema.validator earlier)).map Validator.name? =
      (options.map (Schema.validator context.definitions)).map Validator.name? := by
    rw [List.map_map, List.map_map]
    exact List.map_congr_left (fun option _ => option.name?_validator earlier context.definitions)
  rw [tallied, Validator.tally_congr value 1 names]

/-- A trial of options ends with what the verdicts of attempts with less fuel amount to. -/
theorem trial_ended {options : List Schema}
    (ended : Validator.run supply.surroundings fuel
      (.oneOf (options.map (Schema.validator earlier))) context.settings place value =
        .ok verdict) :
    ∃ less, fuel = less + 1 ∧ ∃ verdicts, List.Forall₂ (fun option result =>
      ∃ origin, supply.attempt earlier less option origin value = .ok result) options verdicts ∧
        verdict = context.tallied options value verdicts := by
  rcases fuel with _ | less
  · cases ended
  rw [Validator.run] at ended
  obtain ⟨verdicts, judged, amounts⟩ := Validator.checkOneOf_ended ended
  rw [List.forall₂_map_left_iff] at judged
  have attempts : List.Forall₂ (fun option result =>
      ∃ origin, supply.attempt earlier less option origin value = .ok result)
      options verdicts := by
    apply judged.imp
    rintro option result ⟨position, ended⟩
    exact ⟨place.part position, ended⟩
  exact ⟨less, rfl, verdicts, attempts, amounts.trans (tallied_eq earlier options value verdicts)⟩

/-- An attempt by a union is a step. -/
theorem step_of_union {node : Nat} {choices : List Schema}
    (made : supply.Made earlier (.union node choices))
    (below : supply.Below judges (.union node choices) fuel)
    (ended : supply.attempt earlier fuel (.union node choices) place value = .ok verdict) :
    context.UnionStep judges choices value verdict := by
  rcases fuel with _ | less
  · cases ended
  have judging : ∀ choice ∈ choices, ∀ short < less + 1, ∀ origin item result,
      supply.attempt earlier short choice origin item = .ok result → judges choice item result :=
    fun choice member short fewer => below choice (reaches_facet member) earlier
      (made.part (List.mem_append_left _ member)) short fewer
  have trial : ∀ {enough : Nat} {options : List Schema} {result : Verdict},
      enough ≤ less + 1 → (∀ option ∈ options, option ∈ choices) →
      Validator.run supply.surroundings enough
        (.oneOf (options.map (Schema.validator earlier))) context.settings place
          value = .ok result →
      ∃ verdicts, List.Forall₂ (fun choice verdict => judges choice value verdict)
        options verdicts ∧ context.tallied options value verdicts = result := by
    intro enough options result smaller among ended
    obtain ⟨short, rfl, verdicts, attempts, rfl⟩ := trial_ended ended
    refine ⟨verdicts, forall₂_imp_of_mem attempts ?_, rfl⟩
    rintro choice member result ⟨origin, ended⟩
    exact judging choice (among choice member) short smaller origin value result ended
  cases decided : Discriminator.find? context.definitions choices with
  | none =>
    rw [supply.attempt_union_none _ _ _ _ (made.find?_eq.trans decided), ← Validator.run] at ended
    obtain ⟨verdicts, judged, amounts⟩ := trial (Nat.le_refl _) (fun _ => id) ended
    exact .trial decided judged amounts
  | some discriminator =>
    rw [supply.attempt_union_some _ _ _ _ (made.find?_eq.trans decided)] at ended
    have tried : ∀ {result}, Validator.run supply.surroundings less
        (.oneOf (Validator.undecided discriminator
          (choices.map (Schema.validator earlier)))) context.settings place value =
          .ok result →
        ∃ verdicts, List.Forall₂ (fun choice verdict => judges choice value verdict)
          (discriminator.aside choices) verdicts ∧
          context.tallied (discriminator.aside choices) value verdicts = result := by
      intro result ended
      rw [Validator.undecided_eq_aside, Discriminator.aside_map] at ended
      exact trial (Nat.le_succ less) (fun _ => Discriminator.mem_of_mem_aside) ended
    unfold Validator.checkDispatch at ended
    split at ended
    · next content fields tags =>
      simp only [Validator.selected?_eq_chosen?, Discriminator.chosen?_map] at ended
      split at ended
      · next chosen =>
        obtain ⟨choice, found, rfl⟩ := Option.map_eq_some_iff.mp chosen
        exact .selected decided rfl found (judging choice (Discriminator.mem_of_chosen? found) less
          (Nat.lt_succ_self less) place _ verdict ended)
      · next unchosen =>
        rw [Option.map_eq_none_iff] at unchosen
        split at ended
        · next complete =>
          obtain rfl := Except.ok.inj ended
          exact .unknown decided (List.isEmpty_iff.mp complete) rfl unchosen _
        · obtain ⟨verdicts, judged, amounts⟩ := tried ended
          refine .aside decided ?_ judged amounts
          rintro content fields tags ⟨rfl, rfl, rfl⟩
          exact unchosen
    · next scalar =>
      split at ended
      · next complete =>
        obtain rfl := Except.ok.inj ended
        refine .scalar decided (List.isEmpty_iff.mp complete) (fun object => ?_)
        cases value <;> cases object
        exact scalar _ _ _ rfl
      · obtain ⟨verdicts, judged, amounts⟩ := tried ended
        exact .aside decided (fun content fields tags object => absurd object (scalar _ _ _))
          judged amounts

/-- A leaf is attempted alike at every moment and in all surroundings. -/
theorem attempt_leaf (leaf : schema.isLeaf = true) (known : schema.KnownFormats context.format)
    (earlier : Definitions) (fuel : Nat) (place : Identity) (value : Value) :
    supply.attempt earlier fuel schema place value = context.attempt fuel schema place value := by
  rcases fuel with _ | less
  · rfl
  cases schema with
  | string node rules =>
    change Validator.checkString supply.surroundings.format _ rules value =
      Validator.checkString context.format _ rules value
    rw [supply.format]
    cases value with
    | string text =>
      simp only [Validator.checkString]
      cases named : rules.format with
      | none => rfl
      | some name =>
        obtain ⟨inner, listed, found⟩ := known name named
        obtain ⟨form, accepts, rfl⟩ := Formats.builtin_textForm listed
        simp only [found]
        rcases less with _ | less <;> rfl
    | _ => rfl
  | unknown => rfl
  | void => rfl
  | null => rfl
  | boolean node rules => rfl
  | integer node rules => rfl
  | number node rules => rfl
  | _ => cases leaf

/-- Every verdict that an attempt ends with comes by one step from verdicts of attempts with
less fuel. -/
theorem attempt_step (made : supply.Made earlier schema)
    (below : supply.Below judges schema fuel) (sound : context.Sound schema)
    (ended : supply.attempt earlier fuel schema place value = .ok verdict) :
    context.Step judges schema value verdict := by
  have names : (context.shape schema).DistinctNames :=
    (sound.reached (reaches_shape context schema)).here.distinctNames
  cases schema with
  | array node items least most => exact step_of_array made below rfl ended
  | object node properties additional => exact step_of_object made below names rfl ended
  | union node choices => exact .union rfl (step_of_union made below ended)
  | intersection node components =>
    rcases fuel with _ | less
    · cases ended
    rw [attempt_intersection] at ended
    have ends : ∀ (position : Nat) (inner : Validator) (item : Value) (result : Verdict),
        Validator.run supply.surroundings less inner context.settings (place.part position)
          item = .ok result →
        ∃ origin, Validator.run supply.surroundings less inner context.settings origin item =
          .ok result :=
      fun _ _ _ _ ended => ⟨_, ended⟩
    refine .intersection rfl ((Validator.checkComponents_judged ends ended).of_map ?_)
    rintro component member item result ⟨origin, ended⟩
    exact below component (reaches_facet member) earlier
      (made.part (List.mem_append_left _ member)) less (Nat.lt_succ_self less) _ _ _ ended
  | named ref =>
    obtain ⟨moment, there, ⟨direct, _⟩ | ⟨other, less, inner, rfl, judged, rfl⟩⟩ :=
      supply.attempt_named_ok earlier _ _ _ made ended
    · cases definition : context.definitions ref with
      | array node items least most =>
        have shaped : context.shape (.named ref) = .array node items least most := by
          rw [shape, if_pos direct, definition]
        exact step_of_array made below shaped ended
      | object node properties additional =>
        have shaped : context.shape (.named ref) = .object node properties additional := by
          rw [shape, if_pos direct, definition]
        exact step_of_object made below names shaped ended
      | _ =>
        rw [definition] at direct
        cases direct
    · exact .named rfl other
        (below _ (reaches_facet Schema.definition_mem_facets) moment there less (by omega) place
          value inner judged) rfl
  | _ =>
    exact .leaf rfl ⟨fuel, place,
      (attempt_leaf rfl sound.here.knownFormats earlier fuel place value).symm.trans ended⟩

/-- Every judgement comes by one step from judgements of the parts. -/
theorem judged_step (sound : context.Sound schema) (judged : supply.Judges schema value verdict) :
    context.Step supply.Judges schema value verdict := by
  obtain ⟨earlier, made, fuel, place, ended⟩ := judged
  exact attempt_step made (fun part _ moment there less _ origin item result ended =>
    ⟨moment, there, less, origin, ended⟩) sound ended

/-- What steps preserve holds of every judgement. The parts share whatever holds throughout the
schema. -/
theorem judged_induction {holds : Schema → Prop} {motive : Schema → Value → Verdict → Prop}
    (step : ∀ schema value verdict, schema.Throughout context.definitions holds →
      context.Step (fun part item result => part.Throughout context.definitions holds ∧
        supply.Judges part item result ∧ motive part item result) schema value verdict →
      motive schema value verdict)
    (sound : context.Sound schema) (everywhere : schema.Throughout context.definitions holds)
    (judged : supply.Judges schema value verdict) : motive schema value verdict := by
  obtain ⟨earlier, made, fuel, place, ended⟩ := judged
  induction fuel using Nat.strongRecOn generalizing earlier schema place value verdict with
  | ind fuel ih =>
  apply step schema value verdict everywhere
  refine attempt_step made ?_ sound ended
  intro part reached moment there less fewer origin item result judged
  exact ⟨everywhere.reached reached, ⟨moment, there, less, origin, judged⟩,
    ih less fewer (sound.reached reached) (everywhere.reached reached) moment there origin judged⟩

/-- What accepting steps preserve holds of every answer. The parts share whatever holds
throughout the schema. -/
theorem accepted_induction {holds : Schema → Prop} {motive : Schema → Value → Value → Prop}
    (step : ∀ schema value answer, schema.Throughout context.definitions holds →
      context.Step (fun part item result => part.Throughout context.definitions holds ∧
        supply.Judges part item result ∧
        ∀ answer, result = .accepted answer → motive part item answer)
        schema value (.accepted answer) → motive schema value answer)
    (sound : context.Sound schema) (everywhere : schema.Throughout context.definitions holds)
    {answer : Value} (judged : supply.Judges schema value (.accepted answer)) :
    motive schema value answer := by
  refine judged_induction (motive := fun schema value verdict =>
    ∀ answer, verdict = .accepted answer → motive schema value answer) ?_ sound everywhere judged
    answer rfl
  rintro schema value _ everywhere judged answer rfl
  exact step schema value answer everywhere judged

end Supply

variable {context : Context} {fuel : Nat} {schema : Schema} {place : Identity} {value : Value}
  {verdict : Verdict}

/-- What a context judges is what its own supply judges. -/
theorem judges_own_iff : context.own.Judges schema value verdict ↔
    context.Judges schema value verdict := by
  constructor
  · rintro ⟨earlier, ⟨rfl, _⟩, judged⟩
    exact judged
  · intro judged
    exact ⟨context.definitions, context.made_own schema, judged⟩

/-- The judgements of a context are those of its own supply. -/
theorem judges_own (context : Context) : context.own.Judges = context.Judges := by
  funext schema value verdict
  exact propext judges_own_iff

/-- A trial of options ends with what the verdicts of attempts with less fuel amount to. -/
theorem trial_ended {options : List Schema}
    (ended : Validator.run context.surroundings fuel
      (.oneOf (options.map (Schema.validator context.definitions))) context.settings place value =
        .ok verdict) :
    ∃ less, fuel = less + 1 ∧ ∃ verdicts, List.Forall₂ (fun option result =>
      ∃ origin, context.attempt less option origin value = .ok result) options verdicts ∧
        verdict = context.tallied options value verdicts :=
  context.own.trial_ended ended

/-- Every judgement comes by one step from judgements of the parts. -/
theorem judged_step (sound : context.Sound schema) (judged : context.Judges schema value verdict) :
    context.Step context.Judges schema value verdict := by
  rw [← judges_own] at judged ⊢
  exact Supply.judged_step sound judged

/-- What judges as an object judges by one step, whatever its parts are. -/
theorem judged_object (names : (context.shape schema).DistinctNames) {node : Nat}
    {properties : List (Property Schema)} {additional : Additional Schema}
    (shaped : context.shape schema = .object node properties additional)
    (judged : context.Judges schema value verdict) :
    context.Step context.Judges schema value verdict := by
  rw [← judges_own] at judged ⊢
  obtain ⟨earlier, made, fuel, place, ended⟩ := judged
  exact Supply.step_of_object made (fun part _ moment there less _ origin item result ended =>
    ⟨moment, there, less, origin, ended⟩) names shaped ended

/-- What judges as an object accepts an object by its fields, whatever its parts are. -/
theorem accepted_fields {node : Nat} {properties : List (Property Schema)}
    {additional : Additional Schema}
    (shaped : context.shape schema = .object node properties additional)
    (names : (Property.names properties).Nodup) {content : Identity} {fields : Fields Value}
    {tags : Tags} {answer : Value}
    (judged : context.Judges schema (.object content fields tags) (.accepted answer)) :
    ∃ (place : Identity) (answers : Fields Value),
      answer = .object place answers (tags.insert schema) ∧
      Validator.FieldsStep context.Judges (context.settings.convertFromNetwork && !tags.has schema)
        (context.settings.unknownField = .drop) properties additional fields answers := by
  have distinct : (context.shape schema).DistinctNames := by
    rw [shaped]
    exact names
  obtain ⟨place, _, _, answers, _, same, rfl, step⟩ :=
    (judged_object distinct shaped judged).object shaped
  obtain ⟨rfl, rfl, rfl⟩ := Value.object.inj same
  exact ⟨place, answers, rfl, step⟩

/-- What steps preserve holds of every judgement. The parts share whatever holds throughout the
schema. -/
theorem judged_induction {holds : Schema → Prop} {motive : Schema → Value → Verdict → Prop}
    (step : ∀ schema value verdict, schema.Throughout context.definitions holds →
      context.Step (fun part item result => part.Throughout context.definitions holds ∧
        context.Judges part item result ∧ motive part item result) schema value verdict →
      motive schema value verdict)
    (sound : context.Sound schema) (everywhere : schema.Throughout context.definitions holds)
    (judged : context.Judges schema value verdict) : motive schema value verdict := by
  rw [← judges_own] at step judged
  exact Supply.judged_induction step sound everywhere judged

/-- What accepting steps preserve holds of every answer. The parts share whatever holds
throughout the schema. -/
theorem accepted_induction {holds : Schema → Prop} {motive : Schema → Value → Value → Prop}
    (step : ∀ schema value answer, schema.Throughout context.definitions holds →
      context.Step (fun part item result => part.Throughout context.definitions holds ∧
        context.Judges part item result ∧
        ∀ answer, result = .accepted answer → motive part item answer)
        schema value (.accepted answer) → motive schema value answer)
    (sound : context.Sound schema) (everywhere : schema.Throughout context.definitions holds)
    {answer : Value} (judged : context.Judges schema value (.accepted answer)) :
    motive schema value answer := by
  rw [← judges_own] at step judged
  exact Supply.accepted_induction step sound everywhere judged

end Context

end Conform
