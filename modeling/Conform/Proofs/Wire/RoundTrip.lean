import Conform.Proofs.Wire.Names

/-!
# Decoding and encoding

A document that is decoded by its wire names is encoded as the document it was, up to the
order of fields. Decoding goes by schemas, encoding by the tags that decoding left. A name
that stands for an object, however many names there are between, adds a tag that says the
same as the tag of the object, and a name that stands for anything else adds a tag that says
nothing, so both have the wire names of one object in mind.
-/

namespace Conform

/-- The value is not an object with this key. -/
def Value.Lacks (key : String) : Value → Prop
  | .object _ fields _ => key ∉ Fields.keys fields
  | _ => True

/-- A node that writes what it reads: wire names are distinct, and the inner names of renamed
properties are free. -/
@[mk_iff]
structure Schema.Spelled (free : String → Prop) (node : Schema) : Prop where
  apart : ∀ number components, node ≠ .intersection number components
  wireKeys : ∀ number properties additional, node = .object number properties additional →
    (properties.map (Validator.readKey true)).Nodup
  renamed : ∀ number properties additional, node = .object number properties additional →
    ∀ property ∈ properties, Validator.readKey true property ≠ property.name → free property.name

namespace Tags

variable {definitions : Definitions} {tags : Tags} {schema : Schema}

/-- Every tag that has properties has these, and there is one. -/
def Tell (definitions : Definitions) (tags : Tags) (properties : List (Property Schema)) : Prop :=
  ∃ count, tags.filterMap (Schema.properties? definitions) = List.replicate (count + 1) properties

/-- One more tag adds at most what is selected of it, at the end. -/
theorem filterMap_insert {α : Type} (select : Schema → Option α) :
    (tags.insert schema).filterMap select = tags.filterMap select ∨
      (tags.insert schema).filterMap select = tags.filterMap select ++ (select schema).toList := by
  unfold insert
  split
  · exact .inl rfl
  · right
    rw [List.filterMap_append]
    cases found : select schema <;> simp [found]

/-- A tag that tells what the other tags tell, or nothing, leaves wire names alone. -/
theorem tell_insert (told : ∀ properties, schema.properties? definitions = some properties →
      tags.Tell definitions properties) :
    (∀ properties, schema.properties? definitions = some properties →
        (tags.insert schema).Tell definitions properties) ∧
      ∀ key, Value.wireKey definitions (tags.insert schema) key =
        Value.wireKey definitions tags key := by
  have either := @filterMap_insert tags schema _ (Schema.properties? definitions)
  cases known : schema.properties? definitions with
  | none =>
    rw [known, Option.toList_none, List.append_nil, or_self] at either
    refine ⟨fun properties tells => (by cases tells), fun key => ?_⟩
    rw [Value.wireKey, Value.wireKey, either]
  | some properties =>
    obtain ⟨count, same⟩ := told properties known
    have tell : (tags.insert schema).Tell definitions properties := by
      rw [known, same, Option.toList_some, ← List.replicate_succ'] at either
      rcases either with kept | added
      · exact ⟨count, kept⟩
      · exact ⟨count + 1, added⟩
    refine ⟨fun properties' known' => Option.some.inj known' ▸ tell, fun key => ?_⟩
    obtain ⟨count', same'⟩ := tell
    rw [Value.wireKey_of_replicate same', Value.wireKey_of_replicate same]

end Tags

namespace Schema

variable {definitions : Definitions}

/-- What a name stands for has the properties that the name has. -/
theorem properties?_of_named {ref : NamedRef} {properties : List (Property Schema)}
    (found : (Schema.named ref).properties? definitions = some properties) :
    (definitions ref).properties? definitions = some properties := by
  unfold properties? at found ⊢
  split at found
  · next number own additional behind =>
    have inner : follow definitions 63 (definitions ref) = .object number own additional := behind
    have same : (definitions ref).resolve definitions = .object number own additional :=
      follow_succ inner (by simp)
    rw [same]
    exact found
  · cases found

end Schema

namespace Context

variable {context : Context}

/-- An answer that is encoded as the value it is for. Where the schema has properties, the
tags tell these. -/
structure Encodes (context : Context) (schema : Schema) (value answer : Value) : Prop where
  there : answer.isUndefined = false
  told : ∀ properties, schema.properties? context.definitions = some properties →
    answer.tags.Tell context.definitions properties
  alike : (answer.toWire context.definitions).Alike value.toJson

/-- The tag of a name that stands for no container changes nothing. -/
theorem Encodes.named {ref : NamedRef} {value answer : Value}
    (encodes : context.Encodes (context.definitions ref) value answer) :
    context.Encodes (.named ref) value (answer.withTags [.named ref]) := by
  obtain ⟨there, told, alike⟩ := encodes
  have told := fun properties known => told properties (Schema.properties?_of_named known)
  obtain ⟨further, same⟩ := Tags.tell_insert told
  cases answer with
  | array content items tags => exact ⟨rfl, further, alike⟩
  | object content fields tags =>
    refine ⟨rfl, further, ?_⟩
    have written := Value.toWireFields_congr same fields
    change (Json.object (Fields.ofList (Value.toWireFields context.definitions _ fields))).Alike _
    exact written ▸ alike
  | _ => exact ⟨there, told, alike⟩

/-- An object whose fields are encoded is encoded. -/
theorem Encodes.object {schema : Schema} {number : Nat} {properties : List (Property Schema)}
    {additional : Additional Schema} {content place : Identity} {fields answers : Fields Value}
    (shaped : context.shape schema = .object number properties additional)
    (names : (Property.names properties).Nodup)
    (wireKeys : (properties.map (Validator.readKey true)).Nodup)
    (document : (Value.object content fields []).Throughout Value.Document)
    (free : ∀ property ∈ properties, Validator.readKey true property ≠ property.name →
      property.name ∉ fields.keys)
    {judges : Schema → Value → Verdict → Prop}
    (judged : ∀ body ∈ properties.map Property.body ++ additional.bodies, ∀ entry ∈ fields,
      ∀ answer, judges body entry.2 (.accepted answer) → context.Encodes body entry.2 answer)
    (step : Validator.FieldsStep judges true false properties additional fields answers) :
    context.Encodes schema (.object content fields []) (.object place answers [schema]) := by
  have known := properties?_of_shape shaped
  have single : [schema].filterMap (Schema.properties? context.definitions) =
      List.replicate 1 properties := by simp [known]
  have distinct : Fields.Distinct fields := document.here.keyed
  have there : ∀ entry ∈ fields, entry.2.isUndefined = false :=
    fun entry member => (document.field member).here.there
  -- each field is encoded as the one that was read for it
  have each : ∀ key answer, (key, answer) ∈ answers → ∃ item,
      (Property.rename properties key, item) ∈ fields ∧ answer.isUndefined = false ∧
        (answer.toWire context.definitions).Alike item.toJson := by
    intro key answer member
    obtain ⟨item, read, ⟨_, rfl⟩ | ⟨body, inside, accepted⟩⟩ := step.read names member
    · have plain := document.field read
      exact ⟨answer, read, plain.here.there, Value.toWire_eq_toJson plain ▸ Json.Alike.refl _⟩
    · obtain ⟨there, _, alike⟩ := judged body inside _ read answer accepted
      exact ⟨item, read, there, alike⟩
  have present : ∀ entry ∈ answers, entry.2.isUndefined = false := by
    intro entry member
    obtain ⟨item, _, there, _⟩ := each entry.1 entry.2 member
    exact there
  have keys := step.keys_perm names wireKeys distinct there free
  refine ⟨rfl, fun properties' known' => ?_, ?_⟩
  · obtain rfl := Option.some.inj (known.symm.trans known')
    exact ⟨0, single⟩
  · have written : Value.toWireFields context.definitions [schema] answers =
        answers.map (fun entry =>
          (Property.rename properties entry.1, entry.2.toWire context.definitions)) := by
      rw [Value.toWireFields_eq_map _ _ present]
      simp only [Value.wireKey_of_replicate single]
    have read : Value.toFields fields = fields.map (fun entry => (entry.1, entry.2.toJson)) :=
      Value.toFields_eq_map there
    have order : (Fields.keys (Value.toWireFields context.definitions [schema] answers)).Perm
        (Fields.keys (Value.toFields fields)) := by
      rw [written, read]
      simpa [Fields.keys, Function.comp_def] using keys
    have apart : (Fields.keys (Value.toFields fields)).Nodup := by
      rw [read]
      simpa [Fields.Distinct, Fields.keys, Function.comp_def] using distinct
    rw [Value.toWire, Value.toJson, Fields.ofList_of_distinct (order.nodup_iff.mpr apart)]
    refine Json.Alike.fields order (fun key encoded origin member member' => ?_)
    rw [written] at member
    rw [read] at member'
    obtain ⟨⟨inner, answer⟩, inside, pair⟩ := List.mem_map.mp member
    obtain ⟨⟨outer, item'⟩, inside', pair'⟩ := List.mem_map.mp member'
    obtain ⟨rfl, rfl⟩ := Prod.mk.inj pair
    obtain ⟨rfl, rfl⟩ := Prod.mk.inj pair'
    obtain ⟨item, found, _, alike⟩ := each inner answer inside
    have same : item' = item := (Fields.lookup_of_mem distinct inside').symm.trans
      (Fields.lookup_of_mem distinct found)
    exact same ▸ alike

/-- What decoding accepts is encoded as it was. -/
theorem encodes (network : context.settings = .fromNetwork) {schema : Schema}
    {value answer : Value} (sound : context.Sound schema)
    (spelled : schema.Throughout context.definitions
      (Schema.Spelled fun name => value.Throughout (Value.Lacks name)))
    (document : value.Throughout Value.Document)
    (judged : context.Judges schema value (.accepted answer)) :
    context.Encodes schema value answer := by
  obtain ⟨verbatim, wired, lone, keep⟩ := Options.wired_of_network network
  generalize free : (fun name => value.Throughout (Value.Lacks name)) = lacking at spelled
  have lacks : ∀ name, lacking name → value.Throughout (Value.Lacks name) := by
    subst free
    exact fun _ => id
  have everywhere : schema.Throughout context.definitions
      (fun node => node.WellFormed context.format ∧ Schema.Spelled lacking node) :=
    fun node reached => ⟨sound node reached, spelled node reached⟩
  clear free
  revert document lacks
  refine accepted_induction (motive := fun schema value answer =>
      value.Throughout Value.Document →
      (∀ name, lacking name → value.Throughout (Value.Lacks name)) →
      context.Encodes schema value answer) ?_ sound everywhere judged
  clear everywhere judged
  intro schema value answer everywhere step document lacks
  have sound : context.Sound schema := everywhere.imp fun _ both => both.1
  cases step with
  | leaf leaf judged =>
    rcases leaf_answer leaf sound.here.knownFormats judged with rfl | ⟨_, loose⟩
    · refine ⟨document.here.there, fun properties known => ?_,
        Value.toWire_eq_toJson document ▸ Json.Alike.refl _⟩
      cases schema with
      | named ref => cases leaf
      | object number own additional => cases leaf
      | _ => cases known
    · exact absurd verbatim loose
  | @items _ items _ _ list answers place shape found count judged =>
    obtain ⟨content, tags, rfl⟩ := Validator.itemsOf?_eq_some lone found
    cases found
    have each : List.Forall₂ (fun item answer =>
        (answer.toWire context.definitions).Alike item.toJson) list answers := by
      refine forall₂_imp_of_mem judged ?_
      rintro item member answer ⟨_, _, encodes⟩
      have encoded := encodes answer rfl (document.item member)
        (fun name free => (lacks name free).item member)
      exact encoded.alike
    refine ⟨rfl, fun properties known => ?_, ?_⟩
    · rw [Schema.properties?, resolve_of_container (by rw [shape]; rfl), shape] at known
      cases known
    · rw [Value.toWire, Value.toJson, Value.toWireItems_eq_map, Value.toItems_eq_map]
      apply Json.Alike.items
      rw [List.forall₂_map_left_iff, List.forall₂_map_right_iff]
      exact each.flip
  | @fields _ properties additional content fields answers tags place shape object judged =>
    subst object
    have reached := everywhere.reached (reaches_shape context schema)
    obtain rfl : tags = [] := document.here.untagged
    rw [shape] at reached
    rw [wired, keep, Bool.true_and] at judged
    refine Encodes.object shape reached.here.1.distinctNames (reached.here.2.wireKeys _ _ _ rfl)
      document (fun property member renamed => ?_)
      (fun body inside entry member answer judged => ?_) judged
    · exact (lacks _ (reached.here.2.renamed _ _ _ rfl property member renamed)).here
    · exact judged.2.2 answer rfl (document.field member)
        (fun name free => (lacks name free).field member)
  | union shape judged =>
    obtain ⟨choice, member, _, _, encodes⟩ := judged.accepted
    have encoded := encodes answer rfl document lacks
    subst shape
    exact ⟨encoded.there, fun properties known => (by cases known), encoded.alike⟩
  | intersection shape judged => exact absurd shape (everywhere.here.2.apart _ _)
  | @named ref inner _ shape other judged tagged =>
    subst shape
    obtain ⟨first, rfl, rfl⟩ := accepted_of_map tagged
    exact (judged.2.2 first rfl document lacks).named

/-- A document that decoding accepts is encoded as the same document, up to the order of
fields. -/
theorem toWire_alike_document (network : context.settings = .fromNetwork) {schema : Schema}
    (sound : context.Sound schema) {place : Identity} {document : Json}
    (keyed : (Value.ofJson place document).Throughout Value.Keyed)
    (spelled : schema.Throughout context.definitions (Schema.Spelled fun name =>
      (Value.ofJson place document).Throughout (Value.Lacks name)))
    {fuel : Nat} {origin : Identity} {answer : Value}
    (ended : context.attempt fuel schema origin (Value.ofJson place document) =
      .ok (.accepted answer)) :
    (answer.toWire context.definitions).Alike document := by
  have encoded := encodes network sound spelled (Value.document_ofJson keyed) ⟨_, _, ended⟩
  exact Value.toJson_ofJson place document ▸ encoded.alike

end Context

namespace Shapes

/-- A group of one circle, by wire names. -/
def document : Json :=
  .object [("members", .array [.object [("r", .number radius),
    ("type", .string "circle")]]), ("type", .string "group"), ("note", .null)]

/-- The group is decoded, and encoded as it was. -/
theorem decoded_alike_document :
    let context : Context := ⟨definitions, fun _ => none, .fromNetwork⟩
    ∃ answer, context.attempt 20 shape (.run 1) (.ofJson (.run 0) document) =
        .ok (.accepted answer) ∧ (answer.toWire definitions).Alike document := by
  intro context
  have inside : shape ∈ nodes := .head _
  have keyed : (Value.ofJson (.run 0) document).Throughout Value.Keyed := by
    simp [document, Value.ofJson, Value.ofFields, Value.ofItems, Value.Keyed, Fields.Distinct,
      Fields.keys]
  have lacks : ∀ name ∈ ["kind", "radius"],
      (Value.ofJson (.run 0) document).Throughout (Value.Lacks name) := by
    simp [document, Value.ofJson, Value.ofFields, Value.ofItems, Value.Lacks, Fields.keys]
  have spelled : shape.Throughout context.definitions (Schema.Spelled fun name =>
      (Value.ofJson (.run 0) document).Throughout (Value.Lacks name)) := by
    refine throughout ?_ inside
    have kind := lacks "kind" (.head _)
    have radius := lacks "radius" (.tail _ (.head _))
    simp [nodes, Schema.spelled_iff, shape, circle, group, Validator.readKey, kind, radius]
  obtain ⟨answer, ended⟩ : ∃ answer, context.attempt 20 shape (.run 1)
      (.ofJson (.run 0) document) = .ok (.accepted answer) := ⟨_, rfl⟩
  exact ⟨answer, ended, Context.toWire_alike_document rfl (sound _ _ inside) keyed spelled ended⟩

end Shapes

end Conform
