import Conform.Proofs.Revalidation.Restated
import Conform.Proofs.Wire.Panels

/-!
# Where fields without a value go

Judging an object leaves out its fields without a value, at that place and nowhere else. Where a
schema without unions comes to judge objects depends on the schema alone, so an answer is known
up to the order of fields and tags: it is the value, swept at those places. Sweeping in several
rounds sweeps every place that one of them sweeps, whatever their order.
-/

namespace Conform

open Value (Position)

namespace Value

/-- The same data, where an object at one of the places has lost its fields without a value, and
any other object has kept them. Tags, identities and the order of fields are not looked at. -/
inductive Swept : (List Position → Prop) → Value → Value → Prop
  | undefined {places : List Position → Prop} : Swept places .undefined .undefined
  | null {places : List Position → Prop} : Swept places .null .null
  | bool {places : List Position → Prop} (value : Bool) : Swept places (.bool value) (.bool value)
  | number {places : List Position → Prop} (value : Number) :
    Swept places (.number value) (.number value)
  | string {places : List Position → Prop} (value : String) :
    Swept places (.string value) (.string value)
  | array {places : List Position → Prop} {content content' : Identity} {items items' : List Value}
      {tags tags' : Tags} (lengths : items.length = items'.length)
      (each : ∀ (index : Nat) (inside : index < items.length) (inside' : index < items'.length),
        Swept (fun rest => places (.index index :: rest)) items[index] items'[index]) :
      Swept places (.array content items tags) (.array content' items' tags')
  | object {places : List Position → Prop} {content content' : Identity}
      {fields fields' : Fields Value} {tags tags' : Tags} (distinct : Fields.Distinct fields')
      (keys : ∀ key, key ∈ fields'.keys ↔
        key ∈ fields.keys ∧ (places [] → (fields.lookup key).isUndefined = false))
      (each : ∀ key ∈ fields'.keys,
        Swept (fun rest => places (.key key :: rest)) (fields.lookup key) (fields'.lookup key)) :
      Swept places (.object content fields tags) (.object content' fields' tags')

namespace Swept

variable {places places' : List Position → Prop} {value middle answer answer' : Value}

/-- What is swept is there when it was there before. -/
theorem isUndefined_eq (swept : value.Swept places answer) :
    value.isUndefined = answer.isUndefined := by
  cases swept <;> rfl

/-- Sweeping no place leaves everything. -/
theorem refl (keyed : value.Throughout Keyed) : value.Swept (fun _ => False) value := by
  induction value using contents_induction with
  | step value ih =>
  cases value with
  | undefined => exact .undefined
  | null => exact .null
  | bool value => exact .bool value
  | number value => exact .number value
  | string value => exact .string value
  | array content items tags =>
    refine .array rfl (fun index inside _ => ?_)
    have member := List.getElem_mem inside
    exact ih items[index] member (keyed.item member)
  | object content fields tags =>
    have distinct : Fields.Distinct fields := keyed.here
    refine .object distinct (fun key => (and_iff_left (fun never => never.elim)).symm)
      (fun key listed => ?_)
    obtain ⟨held, inside⟩ := Fields.exists_mem_of_mem_keys listed
    rw [Fields.lookup_of_mem distinct inside]
    exact ih held (List.mem_map_of_mem inside) (keyed.field inside)

/-- Two rounds sweep the places of both. -/
theorem trans (first : value.Swept places middle) (second : middle.Swept places' answer) :
    value.Swept (fun place => places place ∨ places' place) answer := by
  induction first generalizing answer places' with
  | undefined =>
    cases second
    exact .undefined
  | null =>
    cases second
    exact .null
  | bool value =>
    cases second
    exact .bool value
  | number value =>
    cases second
    exact .number value
  | string value =>
    cases second
    exact .string value
  | array lengths each ih =>
    cases second with
    | array lengths' each' =>
      refine .array (lengths.trans lengths') (fun index inside inside' => ?_)
      exact ih index inside (lengths ▸ inside) (each' index (lengths ▸ inside) inside')
  | object distinct keys each ih =>
    cases second with
    | object distinct' keys' each' =>
      refine .object distinct' (fun key => ?_) (fun key listed => ?_)
      · rw [keys', keys, and_assoc]
        refine and_congr_right fun listed => ⟨?_, fun both => ⟨fun swept => both (.inl swept), ?_⟩⟩
        · rintro ⟨before, after⟩ (swept | swept)
          · exact before swept
          · rw [(each key ((keys key).mpr ⟨listed, before⟩)).isUndefined_eq]
            exact after swept
        · intro swept
          have there := both (.inr swept)
          rwa [(each key ((keys key).mpr ⟨listed, fun _ => there⟩)).isUndefined_eq] at there
      · exact ih key ((keys' key).mp listed).1 (each' key listed)

/-- Tags are not looked at. -/
theorem withTags (swept : value.Swept places answer) (schemas : List Schema) :
    value.Swept places (answer.withTags schemas) := by
  cases swept with
  | undefined => exact .undefined
  | null => exact .null
  | bool value => exact .bool value
  | number value => exact .number value
  | string value => exact .string value
  | array lengths each => exact .array lengths each
  | object distinct keys each => exact .object distinct keys each

/-- What is left has distinct keys. -/
theorem keyed (swept : value.Swept places answer) : answer.Throughout Keyed := by
  induction swept with
  | array lengths each ih =>
    refine throughout_array_iff.mpr ⟨trivial, fun item member => ?_⟩
    obtain ⟨index, inside, rfl⟩ := List.getElem_of_mem member
    exact ih index (lengths ▸ inside) inside
  | object distinct keys each ih =>
    refine throughout_object_iff.mpr ⟨distinct, fun entry member => ?_⟩
    rw [← Fields.lookup_of_mem distinct member]
    exact ih entry.1 (Fields.mem_keys member)
  | _ => exact (throughout_scalar_iff rfl).mpr trivial

/-- A value swept at the same places twice gives equal values. -/
theorem eq (swept : value.Swept places answer) (swept' : value.Swept places answer') :
    answer.eq answer' = true := by
  induction swept generalizing answer' with
  | array lengths each ih =>
    cases swept' with
    | array lengths' each' =>
      rw [Value.eq]
      refine eqItems_of_forall₂ (List.forall₂_iff_get.mpr ⟨lengths.symm.trans lengths', ?_⟩)
      intro index inside inside'
      exact ih index (lengths ▸ inside) inside (each' index (lengths ▸ inside) inside')
  | object distinct keys each ih =>
    cases swept' with
    | object distinct' keys' each' =>
      have alike : ∀ key, key ∈ Fields.keys _ ↔ key ∈ Fields.keys _ :=
        fun key => (keys key).trans (keys' key).symm
      exact eq_of_lookup distinct distinct' alike
        (fun key listed => ih key listed (each' key ((alike key).mp listed)))
  | _ =>
    cases swept'
    exact eq_self_of_scalar rfl

end Swept

end Value

/-! ## The places where a schema judges objects -/

namespace Schema

/-- Without the options of unions, the schema comes to judge an object at the place, if there is
one. -/
inductive Opens (definitions : Definitions) : Schema → List Position → Prop
  | here {node : Nat} {properties : List (Property Schema)} {additional : Additional Schema} :
    Opens definitions (.object node properties additional) []
  | field {node : Nat} {properties : List (Property Schema)} {additional : Additional Schema}
      {key : String} {body : Schema} {rest : List Position}
      (judged : bodyAt? properties additional key = some body)
      (opens : Opens definitions body rest) :
      Opens definitions (.object node properties additional) (.key key :: rest)
  | item {node : Nat} {items : Schema} {least most : Option Nat} {index : Nat}
      {rest : List Position} (opens : Opens definitions items rest) :
      Opens definitions (.array node items least most) (.index index :: rest)
  | component {node : Nat} {components : List Schema} {component : Schema} {place : List Position}
      (member : component ∈ components) (opens : Opens definitions component place) :
      Opens definitions (.intersection node components) place
  | named {ref : NamedRef} {place : List Position}
      (opens : Opens definitions (definitions ref) place) :
      Opens definitions (.named ref) place

variable {definitions : Definitions} {schema : Schema} {node : Nat}

/-- A leaf judges no objects. -/
theorem opens_of_isLeaf (leaf : schema.isLeaf = true) :
    schema.Opens definitions = fun _ => False := by
  funext place
  refine propext ⟨fun opens => ?_, False.elim⟩
  cases opens <;> cases leaf

/-- A name opens the places that its definition does. -/
theorem opens_named (ref : NamedRef) :
    (Schema.named ref).Opens definitions = (definitions ref).Opens definitions := by
  funext place
  exact propext ⟨fun (.named opens) => opens, .named⟩

/-- An intersection opens the places that its components do. -/
theorem opens_intersection (components : List Schema) :
    (Schema.intersection node components).Opens definitions =
      fun place => ∃ component ∈ components, component.Opens definitions place := by
  funext place
  exact propext ⟨fun (.component member opens) => ⟨_, member, opens⟩,
    fun ⟨_, member, opens⟩ => .component member opens⟩

/-- Inside an item it is the schema of items that judges. -/
theorem opens_item {items : Schema} {least most : Option Nat} (index : Nat) :
    (fun rest => (Schema.array node items least most).Opens definitions (.index index :: rest)) =
      items.Opens definitions := by
  funext rest
  exact propext ⟨fun (.item opens) => opens, .item⟩

section

variable {properties : List (Property Schema)} {additional : Additional Schema} {key : String}

/-- Inside a field it is what judges the field. -/
theorem opens_field {body : Schema} (judged : bodyAt? properties additional key = some body) :
    (fun rest => (Schema.object node properties additional).Opens definitions (.key key :: rest)) =
      body.Opens definitions := by
  funext rest
  refine propext ⟨fun opens => ?_, .field judged⟩
  cases opens with
  | field judged' opens =>
    obtain rfl := Option.some.inj (judged.symm.trans judged')
    exact opens

/-- Inside a field that is kept nothing judges. -/
theorem opens_kept (kept : bodyAt? properties additional key = none) :
    (fun rest => (Schema.object node properties additional).Opens definitions (.key key :: rest)) =
      fun _ => False := by
  funext rest
  refine propext ⟨fun opens => ?_, False.elim⟩
  cases opens with
  | field judged' opens => cases kept.symm.trans judged'

end

/-- What the builders of schemas see to, only built-in formats, and no options to try. -/
@[mk_iff]
structure Unionless (format : String → Option Validator) (node : Schema) : Prop where
  wellFormed : node.WellFormed format
  single : ∀ number choices, node ≠ .union number choices

end Schema

/-! ## Answers are swept values -/

namespace Validator

variable {judges : Schema → Value → Verdict → Prop} {definitions : Definitions}

/-- An object is swept by what judges it, when bodies sweep what they judge. -/
theorem FieldsStep.swept {node : Nat} {properties : List (Property Schema)}
    {additional : Additional Schema} {fields answers : Fields Value} {content place : Identity}
    {tags tags' : Tags} (names : (Property.names properties).Nodup)
    (keyed : (Value.object content fields tags).Throughout Value.Keyed)
    (each : ∀ body ∈ properties.map Property.body ++ additional.bodies, ∀ item answer,
      item.Throughout Value.Keyed → judges body item (.accepted answer) →
      item.Swept (body.Opens definitions) answer)
    (step : FieldsStep judges false false properties additional fields answers) :
    (Value.object content fields tags).Swept
      ((Schema.object node properties additional).Opens definitions)
      (.object place answers tags') := by
  have distinct : Fields.Distinct fields := keyed.here
  have distinct' : answers.Distinct := step.distinct names distinct
  refine .object distinct' (fun key => ⟨fun listed => ?_, fun ⟨_, there⟩ => ?_⟩)
    (fun key listed => ?_)
  · obtain ⟨answer, inside⟩ := Fields.exists_mem_of_mem_keys listed
    obtain ⟨item, source, there, _⟩ := step.under_key inside
    rw [Fields.lookup_of_mem distinct source]
    exact ⟨Fields.mem_keys source, fun _ => there⟩
  · exact step.mem_keys_of_lookup (there .here)
  · obtain ⟨answer, inside⟩ := Fields.exists_mem_of_mem_keys listed
    rw [Fields.lookup_of_mem distinct' inside]
    rcases step.origin inside with ⟨property, declared, rfl, there, judged⟩ | ⟨item, other, how⟩
    · rw [readKey_false] at there judged
      rw [Schema.opens_field (Schema.bodyAt?_declared names declared)]
      exact each _ (additional.declared_mem declared) _ _
        (keyed.field (Fields.mem_of_lookup there)) judged
    · obtain ⟨source, untaken, _⟩ := mem_otherFields.mp other
      have undeclared : Schema.bodyAt? properties additional key = Schema.otherBody? additional :=
        Schema.bodyAt?_other (fun property member named => by
          have taken := (isTaken_false properties key).mpr (named ▸ List.mem_map_of_mem member)
          cases taken.symm.trans untaken)
      rw [Fields.lookup_of_mem distinct source]
      rcases how with ⟨rfl, rfl⟩ | ⟨body, rfl, judged⟩
      · rw [Schema.opens_kept undeclared]
        exact .refl (keyed.field source)
      · rw [Schema.opens_field undeclared]
        exact each body (Additional.each_mem properties rfl) _ _ (keyed.field source) judged

/-- Components sweep one after another. -/
theorem Chain.swept {components : List Schema} {value answer : Value} {tags : Tags}
    (keyed : value.Throughout Value.Keyed)
    (each : ∀ component ∈ components, ∀ item answer, item.Throughout Value.Keyed →
      judges component item (.accepted answer) → item.Swept (component.Opens definitions) answer)
    (chain : Chain judges components value tags (.accepted answer)) :
    value.Swept (fun place => ∃ component ∈ components, component.Opens definitions place)
      answer := by
  induction components generalizing value tags with
  | nil =>
    cases chain
    simp only [List.not_mem_nil, false_and, exists_false]
    exact (Value.Swept.refl keyed).withTags tags
  | cons component rest ih =>
    cases chain with
    | next judged further =>
      have first := each component (.head _) _ _ keyed judged
      have others := ih first.keyed (fun other member => each other (.tail _ member)) further
      simp only [List.exists_mem_cons_iff]
      exact first.trans others

end Validator

namespace Context

variable {context : Context} {schema : Schema} {value answer : Value}

/-- A schema without unions and other formats is well-formed throughout. -/
theorem sound_of_unionless
    (unionless : schema.Throughout context.definitions (Schema.Unionless context.format)) :
    context.Sound schema :=
  unionless.imp (fun _ node => node.wellFormed)

/-- A schema opens the places that what it stands for does. -/
theorem opens_shape (context : Context) (schema : Schema) :
    (context.shape schema).Opens context.definitions = schema.Opens context.definitions := by
  unfold shape
  split
  · split
    · exact (Schema.opens_named _).symm
    · rfl
  · rfl

/-- Under strict options a schema without unions answers a value with what is left when it is
swept wherever the schema judges objects. -/
theorem answer_swept (strict : context.settings = .strict)
    (unionless : schema.Throughout context.definitions (Schema.Unionless context.format))
    (keyed : value.Throughout Value.Keyed)
    (judged : context.Judges schema value (.accepted answer)) :
    value.Swept (schema.Opens context.definitions) answer := by
  have faithful : context.settings.Faithful := strict ▸ Options.strict_faithful
  obtain ⟨verbatim, inward, lone, keep⟩ := faithful
  have sound := sound_of_unionless unionless
  revert keyed
  refine accepted_induction (motive := fun schema value answer =>
    value.Throughout Value.Keyed → value.Swept (schema.Opens context.definitions) answer)
    ?_ sound unionless judged
  clear unionless sound judged
  intro schema value answer unionless step keyed
  cases step with
  | leaf leaf judged =>
    rw [Schema.opens_of_isLeaf leaf]
    rcases leaf_answer leaf unionless.here.wellFormed.knownFormats judged with rfl | ⟨_, loose⟩
    · exact .refl keyed
    · exact absurd verbatim loose
  | @items node items least most list answers place shape found count judged =>
    obtain ⟨content, tags, rfl⟩ := Validator.itemsOf?_eq_some lone found
    cases found
    rw [← opens_shape, shape]
    refine .array judged.length_eq (fun index inside inside' => ?_)
    rw [Schema.opens_item]
    obtain ⟨_, _, swept⟩ := (List.forall₂_iff_get.mp judged).2 index inside inside'
    exact swept _ rfl (keyed.item (List.getElem_mem inside))
  | @fields node properties additional content fields answers tags place shape object judged =>
    subst object
    have names : (context.shape schema).DistinctNames :=
      (unionless.reached (reaches_shape context schema)).here.wellFormed.distinctNames
    rw [shape] at names
    rw [inward, Bool.false_and, keep] at judged
    rw [← opens_shape, shape]
    exact judged.swept names keyed (fun body _ item answer keyed ⟨_, _, swept⟩ =>
      swept answer rfl keyed)
  | union shape judged => exact absurd shape (unionless.here.single _ _)
  | intersection shape judged =>
    subst shape
    rw [Schema.opens_intersection]
    exact judged.swept keyed (fun component _ item answer keyed ⟨_, _, swept⟩ =>
      swept answer rfl keyed)
  | @named ref inner verdict shape other judged tagged =>
    obtain ⟨first, rfl, rfl⟩ := accepted_of_map tagged
    subst shape
    rw [Schema.opens_named]
    exact (judged.2.2 first rfl keyed).withTags _

end Context

end Conform
