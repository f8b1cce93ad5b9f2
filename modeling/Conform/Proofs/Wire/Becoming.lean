import Conform.Proofs.Wire.Converted

/-!
# What a stage becomes

While a value is judged, each schema sees a stage of it and the answer holds what the stage became.
A field of the stage is in the answer under its inner name, and it is read there by the object
types that left their tags, though it lay under a wire name when they judged. What a schema has
answered becomes the same as the stage that it judged.
-/

namespace Conform

open Validator (readKey isTaken FieldsStep)

namespace Value

/-- What holds throughout an object and of the absence of a value holds throughout every field. -/
theorem Throughout.lookup {holds : Value → Prop} {content : Identity} {fields : Fields Value}
    {tags : Tags} (everywhere : (Value.object content fields tags).Throughout holds)
    (blank : holds .undefined) (key : String) : (Fields.lookup key fields).Throughout holds := by
  cases there : (Fields.lookup key fields).isUndefined with
  | true =>
    rw [eq_undefined there]
    exact throughout_undefined_iff.mpr blank
  | false => exact everywhere.field (Fields.mem_of_lookup there)

end Value

/-! ## Passing a value through -/

namespace Validator

/-- Components, one after the other, pass a value on to an answer. -/
inductive Passes {α : Type} (judges : α → Value → Verdict → Prop) :
    List α → Value → Value → Prop
  | done {value : Value} : Passes judges [] value value
  | next {component : α} {rest : List α} {value inner answer : Value}
      (judged : judges component value (.accepted inner))
      (further : Passes judges rest inner answer) : Passes judges (component :: rest) value answer

variable {α : Type} {judges : α → Value → Verdict → Prop} {components : List α}
  {value answer : Value}

/-- A chain that accepts passes the value on, when components only add tags. -/
theorem Chain.passes {tags : Tags}
    (chain : Chain judges components value tags (.accepted answer)) (known : tags ⊆ value.tags)
    (grows : ∀ component ∈ components, ∀ item inner, judges component item (.accepted inner) →
      item.tags ⊆ inner.tags) : Passes judges components value answer := by
  induction components generalizing value tags with
  | nil =>
    cases chain
    rw [Value.withTags_of_subset (fun own found => by simpa [Value.tags, found] using known)]
    exact .done
  | cons component rest ih =>
    cases chain with
    | next judged further =>
      refine .next judged (ih further (fun tag member => ?_) fun other member =>
        grows other (.tail _ member))
      rcases (Tags.mem_merge _ _ _).mp member with old | new
      · exact grows component (.head _) _ _ judged (known old)
      · exact new

namespace Passes

/-- Each component takes part, between those before it and those after it. -/
theorem at_component (passes : Passes judges components value answer) {component : α}
    (member : component ∈ components) : ∃ before after item inner,
      components = before ++ component :: after ∧ Passes judges before value item ∧
        judges component item (.accepted inner) ∧ Passes judges after inner answer := by
  induction passes with
  | done => cases member
  | next judged further ih =>
    cases member with
    | head => exact ⟨[], _, _, _, rfl, .done, judged, further⟩
    | tail _ member =>
      obtain ⟨before, after, item, inner, rfl, passed, part, rest⟩ := ih member
      exact ⟨_ :: before, after, item, inner, rfl, .next judged passed, part, rest⟩

/-- What every component preserves, wherever it takes part, holds of the answer. -/
theorem preserves (holds : Value → Prop) (passes : Passes judges components value answer)
    (start : holds value)
    (kept : ∀ before component after item inner, components = before ++ component :: after →
      Passes judges before value item → judges component item (.accepted inner) →
      Passes judges after inner answer → holds item → holds inner) : holds answer := by
  induction passes with
  | done => exact start
  | @next component rest value inner answer judged further ih =>
    refine ih (kept [] component rest value inner rfl .done judged further start) ?_
    intro before other after item part split passed judged' rest held
    exact kept (component :: before) other after item part (by rw [split]; rfl)
      (.next judged passed) judged' rest held

end Passes

end Validator

/-! ## Stages -/

namespace Context

variable (context : Context)

/-- Any two object types that left their tags on the value are apart. -/
def TypesApart (value : Value) : Prop :=
  ∀ judge ∈ value.tags, ∀ judge' ∈ value.tags,
    ∀ node properties additional node' properties' additional',
    context.shape judge = .object node properties additional →
    context.shape judge' = .object node' properties' additional' →
      judge = judge' ∨ Property.Apart properties properties'

/-- The second value is what the first became when further schemas had judged it. -/
inductive Becomes : Value → Value → Prop
  | scalar {value : Value} (plain : value.tags? = none) : Becomes value value
  | array {content content' : Identity} {items items' : List Value} {tags tags' : Tags}
      (more : tags ⊆ tags') (lengths : items.length = items'.length)
      (each : ∀ (index : Nat) (inside : index < items.length) (inside' : index < items'.length),
        Becomes items[index] items'[index]) :
      Becomes (.array content items tags) (.array content' items' tags')
  | object {content content' : Identity} {fields fields' : Fields Value} {tags tags' : Tags}
      (more : tags ⊆ tags')
      (each : ∀ inner outer key, context.Lies (· ∈ tags') tags inner outer key →
        Becomes (fields.lookup key) (fields'.lookup inner)) :
      Becomes (.object content fields tags) (.object content' fields' tags')

variable {context} {value answer final : Value} {schema : Schema}

/-- What is absent became nothing, and nothing else did. -/
theorem Becomes.isUndefined_eq (becomes : context.Becomes value final) :
    value.isUndefined = final.isUndefined := by
  cases becomes <;> rfl

/-- A scalar becomes itself. -/
theorem Becomes.eq_of_scalar (becomes : context.Becomes value final)
    (plain : value.tags? = none) : final = value := by
  cases becomes with
  | scalar => rfl
  | array => cases plain
  | object => cases plain

/-- A value keeps its tags. -/
theorem Becomes.tags_subset (becomes : context.Becomes value final) :
    value.tags ⊆ final.tags := by
  cases becomes with
  | scalar => exact List.Subset.refl _
  | array more => exact more
  | object more => exact more

/-- Under the tags of those that judge, each field lies under its inner name. -/
theorem Lies.key_eq {tags : Tags} {inner outer key : String}
    (lies : context.Lies (· ∈ tags) tags inner outer key) : key = inner := by
  cases lies with
  | declared tagged shaped listed =>
    rw [(Tags.has_eq_true_iff _ _).mpr tagged, Bool.not_true, Validator.readKey_false]
  | other => rfl

/-- Wherever a field lies at a stage, it lies under its inner name in the end. -/
theorem Lies.own {tags tags' : Tags} {inner outer key : String}
    (lies : context.Lies (· ∈ tags') tags inner outer key) :
    context.Lies (· ∈ tags') tags' inner outer inner := by
  cases lies with
  | declared tagged shaped listed =>
    have own : context.Lies (· ∈ tags') tags' _ _ _ := .declared tagged shaped listed
    rwa [own.key_eq] at own
  | other free => exact .other free

/-- Whatever is there in a converted object lies where the tags say. -/
theorem ConvertedFields.covered {fields : Fields Value} {tags : Tags} {key : String}
    (converted : context.ConvertedFields fields tags)
    (there : (fields.lookup key).isUndefined = false) :
    ∃ outer, context.Lies (· ∈ tags) tags key outer key := by
  by_cases declares : context.Declares tags key
  · obtain ⟨judge, tagged, node, properties, additional, shaped, property, listed, rfl⟩ := declares
    have lies : context.Lies (· ∈ tags) tags property.name _ _ := .declared tagged shaped listed
    exact ⟨_, lies.own⟩
  · refine ⟨key, .other fun judge node properties additional tagged shaped => ?_⟩
    refine Bool.eq_false_iff.mpr (fun taken => declares ?_)
    obtain ⟨property, listed, takes⟩ := Validator.exists_of_isTaken taken
    by_cases renamed : property.Renamed
    · rcases takes with rfl | named
      · exact converted.read judge tagged node properties additional shaped property listed renamed
          (Fields.mem_keys (Fields.mem_of_lookup there))
      · exact ⟨judge, tagged, node, properties, additional, shaped, property, listed, named⟩
    · rw [Validator.readKey_of_plain renamed, or_self] at takes
      exact ⟨judge, tagged, node, properties, additional, shaped, property, listed, takes⟩

/-- A value that nothing judges further becomes itself. -/
theorem becomes_self (value : Value) : context.Becomes value value := by
  induction value using Value.contents_induction with
  | step value ih =>
  cases value with
  | array content items tags =>
    exact .array (List.Subset.refl _) rfl (fun index inside _ => ih _ (List.getElem_mem inside))
  | object content fields tags =>
    refine .object (List.Subset.refl _) (fun inner outer key lies => ?_)
    obtain rfl := lies.key_eq
    cases there : (Fields.lookup key fields).isUndefined with
    | true =>
      rw [Value.eq_undefined there]
      exact .scalar rfl
    | false => exact ih _ (List.mem_map_of_mem (f := Prod.snd) (Fields.mem_of_lookup there))
  | _ => exact .scalar rfl

/-- The tag of a name that stands for no container makes no difference to what a value becomes. -/
theorem Becomes.of_named {ref : NamedRef} (other : (context.definitions ref).isContainer = false)
    (becomes : context.Becomes (value.withTags [.named ref]) final) :
    context.Becomes value final := by
  cases value with
  | array content items tags =>
    cases becomes with
    | scalar plain => cases plain
    | array more lengths each =>
      exact .array (fun tag member => more ((Tags.mem_insert _ _ _).mpr (.inl member))) lengths each
  | object content fields tags =>
    cases becomes with
    | scalar plain => cases plain
    | object more each =>
      exact .object (fun tag member => more ((Tags.mem_insert _ _ _).mpr (.inl member)))
        (fun inner outer key lies => each inner outer key ((Lies.of_named other).mpr lies))
  | _ => exact becomes

/-- What has no tags leaves object types apart. -/
theorem typesApart_undefined : context.TypesApart .undefined :=
  fun _ tagged => nomatch tagged

/-- One object type is apart from all others among the tags that it is one of. -/
theorem TypesApart.apart {content : Identity} {fields : Fields Value} {tags : Tags} {node : Nat}
    {properties : List (Property Schema)} {additional : Additional Schema}
    (apart : context.TypesApart (.object content fields tags)) (tagged : schema ∈ tags)
    (shaped : context.shape schema = .object node properties additional) :
    ∀ judge node' properties' additional', judge ∈ tags →
      context.shape judge = .object node' properties' additional' →
      judge = schema ∨ Property.Apart properties' properties :=
  fun judge _ _ _ tagged' shaped' => apart judge tagged' schema tagged _ _ _ _ _ _ shaped' shaped

section

variable {content place : Identity} {fields answers : Fields Value} {tags : Tags} {node : Nat}
  {properties : List (Property Schema)} {additional : Additional Schema}
  {judges : Schema → Value → Verdict → Prop}

/-- The fields that an object type judged become what their answers become. -/
theorem Becomes.of_answered (shaped : context.shape schema = .object node properties additional)
    (names : (Property.names properties).Nodup) (distinct : fields.Distinct)
    (apart : context.TypesApart final)
    (step : FieldsStep judges (!tags.has schema) false properties additional fields answers)
    (bodies : ∀ inner key answer body, judges body (fields.lookup key) (.accepted answer) →
      (fields.lookup key).isUndefined = false →
      context.Becomes answer (final.field inner) →
      context.Becomes (fields.lookup key) (final.field inner))
    (becomes : context.Becomes (.object place answers (tags.insert schema)) final) :
    context.Becomes (.object content fields tags) final := by
  cases becomes with
  | scalar plain => cases plain
  | object more each =>
  refine .object (fun tag member => more ((Tags.mem_insert _ _ _).mpr (.inl member)))
    (fun inner outer key lies => ?_)
  have tagged := more ((Tags.mem_insert _ _ _).mpr (.inr rfl))
  obtain ⟨after, lay, outcome⟩ :=
    lies.further tagged shaped distinct names (apart.apart tagged shaped) step
  have further := each _ _ _ lay
  generalize Fields.lookup after answers = answer at outcome further
  cases outcome with
  | absent missing none =>
    rw [Value.eq_undefined missing, ← Value.eq_undefined none]
    exact further
  | kept => exact further
  | judged _ there judged => exact bodies inner key answer _ judged there further

end

variable (network : context.settings = .fromNetwork)

include network

/-- What a schema has answered becomes the same as what it judged. -/
theorem judged_becomes (sound : context.Sound schema)
    (converted : value.Throughout context.Converted)
    (judged : context.Judges schema value (.accepted answer))
    (apart : final.Throughout context.TypesApart) (becomes : context.Becomes answer final) :
    context.Becomes value final := by
  obtain ⟨verbatim, wired, lone, keep⟩ := Options.wired_of_network network
  refine accepted_induction (motive := fun _ value answer => ∀ final,
    value.Throughout context.Converted → final.Throughout context.TypesApart →
    context.Becomes answer final → context.Becomes value final) ?_ sound sound judged final
    converted apart becomes
  clear sound converted judged apart becomes
  intro schema value answer sound step final converted apart becomes
  cases step with
  | leaf leaf judged =>
    rcases leaf_answer leaf sound.here.knownFormats judged with rfl | ⟨_, loose⟩
    · exact becomes
    · exact absurd verbatim loose
  | items place shape found count judged =>
    obtain ⟨content, tags, rfl⟩ := Validator.itemsOf?_eq_some lone found
    cases found
    obtain ⟨same, each⟩ := List.forall₂_iff_get.mp judged
    cases becomes with
    | scalar plain => cases plain
    | array more lengths further =>
    refine .array (fun tag member => more ((Tags.mem_merge _ _ _).mpr (.inl member)))
      (same.trans lengths) (fun index inside inside' => ?_)
    have within := same ▸ inside
    exact (each index inside within).2.2 _ rfl _ (converted.item (List.getElem_mem inside))
      (apart.item (List.getElem_mem inside')) (further index within inside')
  | fields place shape object judged =>
    subst object
    have names : (context.shape schema).DistinctNames :=
      (sound.reached (reaches_shape context schema)).here.distinctNames
    rw [shape] at names
    rw [wired, keep, Bool.true_and] at judged
    refine Becomes.of_answered shape names converted.here.keyed apart.here judged ?_ becomes
    intro inner key answer body part there further
    refine part.2.2 answer rfl _ (converted.field (Fields.mem_of_lookup there)) ?_ further
    cases final with
    | object => exact apart.lookup typesApart_undefined inner
    | _ => exact Value.throughout_undefined_iff.mpr typesApart_undefined
  | union shape judged =>
    obtain ⟨_, _, _, _, back⟩ := judged.accepted
    exact back answer rfl final converted apart becomes
  | intersection shape judged =>
    subst shape
    have passes := judged.passes (List.nil_subset _) fun component member item inner part =>
      answer_grows verbatim part.1 part.2.1
    -- the components are run through forward, with what becomes of the value read back
    refine (passes.preserves (fun item => item.Throughout context.Converted ∧
      (context.Becomes item final → context.Becomes value final)) ⟨converted, id⟩ ?_).2 becomes
    rintro before component after item inner split _ part _ ⟨held, back⟩
    exact ⟨answer_converted network part.1 held part.2.1,
      fun further => back (part.2.2 inner rfl final held apart further)⟩
  | named shape other judged tagged =>
    subst shape
    obtain ⟨first, rfl, rfl⟩ := accepted_of_map tagged
    exact judged.2.2 first rfl final converted apart (becomes.of_named other)

end Context

end Conform
