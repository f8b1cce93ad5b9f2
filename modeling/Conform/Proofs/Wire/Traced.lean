import Conform.Proofs.Wire.Becoming

/-!
# Tracing an answer

Every schema that takes part when a value is answered judges a stage of the value or of one of its
parts, and what it answers becomes a part of the answer. From there on the whole can be traced: a
schema that took part sees, when the answer is judged again, what its own answer became. And every
tag on a part of the answer is that of a schema which took part there.
-/

namespace Conform

open Validator (readKey FieldsStep Passes)

namespace Validator

/-- Judges that say no less pass as much. -/
theorem Passes.imp {α : Type} {judges judges' : α → Value → Verdict → Prop} {components : List α}
    {value answer : Value} (passes : Passes judges components value answer)
    (weaker : ∀ component item verdict, judges component item verdict →
      judges' component item verdict) : Passes judges' components value answer := by
  induction passes with
  | done => exact .done
  | next judged _ ih => exact .next (weaker _ _ _ judged) ih

end Validator

namespace Context

/-- When the whole answers the value, a schema judges a stage of a part and answers it with a
result, and the answer of the whole has the final value there. -/
inductive Traced (context : Context) (whole : Schema) (value answer : Value) :
    Schema → Value → Value → Value → Prop
  | whole : Traced context whole value answer whole value answer answer
  | option {node : Nat} {choices : List Schema} {choice : Schema} {stage result final : Value}
      (traced : Traced context whole value answer (.union node choices) stage result final)
      (member : choice ∈ context.delegates stage (.union node choices))
      (judged : context.Judges choice stage (.accepted result)) :
      Traced context whole value answer choice stage result final
  | component {node : Nat} {before after : List Schema} {component : Schema}
      {stage item inner result final : Value}
      (traced : Traced context whole value answer
        (.intersection node (before ++ component :: after)) stage result final)
      (passed : Passes context.Judges before stage item)
      (judged : context.Judges component item (.accepted inner))
      (further : Passes context.Judges after inner result) :
      Traced context whole value answer component item inner final
  | definition {ref : NamedRef} {stage first final : Value}
      (traced : Traced context whole value answer (.named ref) stage
        (first.withTags [.named ref]) final)
      (other : (context.definitions ref).isContainer = false)
      (judged : context.Judges (context.definitions ref) stage (.accepted first)) :
      Traced context whole value answer (context.definitions ref) stage first final
  | item {schema items : Schema} {node index : Nat} {least most : Option Nat}
      {content place place' : Identity} {list answers finals : List Value}
      {tags tags' tags'' : Tags} {stage result final : Value}
      (traced : Traced context whole value answer schema (.array content list tags)
        (.array place answers tags') (.array place' finals tags''))
      (shaped : context.shape schema = .array node items least most)
      (there : list[index]? = some stage) (answered : answers[index]? = some result)
      (held : finals[index]? = some final)
      (judged : context.Judges items stage (.accepted result)) :
      Traced context whole value answer items stage result final
  | field {schema body : Schema} {node : Nat} {properties : List (Property Schema)}
      {additional : Additional Schema} {content place place' : Identity}
      {fields answers finals : Fields Value} {tags tags' tags'' : Tags}
      {inner outer outer' key key' : String}
      (traced : Traced context whole value answer schema (.object content fields tags)
        (.object place answers tags') (.object place' finals tags''))
      (shaped : context.shape schema = .object node properties additional)
      (some : Schema.bodyAt? properties additional inner = some body)
      (lies : context.Lies (· ∈ tags'') tags inner outer key)
      (lies' : context.Lies (· ∈ tags'') tags' inner outer' key')
      (there : (fields.lookup key).isUndefined = false)
      (judged : context.Judges body (fields.lookup key) (.accepted (answers.lookup key'))) :
      Traced context whole value answer body (fields.lookup key) (answers.lookup key')
        (finals.lookup inner)

variable {context : Context} {whole schema : Schema} {value answer stage result final : Value}

namespace Traced

/-- The whole reaches whatever takes part. -/
theorem reaches (traced : context.Traced whole value answer schema stage result final) :
    whole.Reaches context.definitions schema := by
  induction traced with
  | whole => exact Relation.ReflTransGen.refl
  | option _ member _ ih => exact ih.trans (reaches_facet (delegate_facet member))
  | component _ _ _ _ ih => exact ih.trans (reaches_facet (List.mem_append_right _ (.head _)))
  | definition _ _ _ ih => exact ih.trans (reaches_facet Schema.definition_mem_facets)
  | item _ shaped _ _ _ _ ih =>
    refine ih.trans (reaches_content ?_)
    rw [shaped]
    exact Schema.items_mem_contents
  | field _ shaped some _ _ _ _ ih =>
    refine ih.trans (reaches_content ?_)
    rw [shaped]
    exact Schema.mem_of_bodyAt? some

/-- Whatever takes part accepts its stage. -/
theorem judged (accepted : context.Judges whole value (.accepted answer))
    (traced : context.Traced whole value answer schema stage result final) :
    context.Judges schema stage (.accepted result) := by
  cases traced with
  | whole => exact accepted
  | option _ _ judged => exact judged
  | component _ _ judged => exact judged
  | definition _ _ judged => exact judged
  | item _ _ _ _ _ judged => exact judged
  | field _ _ _ _ _ _ judged => exact judged

/-- What holds throughout the answer holds throughout what it has at any place. -/
theorem throughout {holds : Value → Prop} (everywhere : answer.Throughout holds)
    (blank : holds .undefined)
    (traced : context.Traced whole value answer schema stage result final) :
    final.Throughout holds := by
  induction traced with
  | whole => exact everywhere
  | option _ _ _ ih => exact ih
  | component _ _ _ _ ih => exact ih
  | definition _ _ _ ih => exact ih
  | item _ _ _ _ held _ ih => exact ih.item (List.mem_of_getElem? held)
  | @field _ _ _ _ _ _ _ _ _ _ _ _ _ _ inner _ _ _ _ _ _ _ _ _ _ _ ih =>
    exact ih.lookup blank inner

section

variable (network : context.settings = .fromNetwork) (sound : context.Sound whole)
  (converted : value.Throughout context.Converted)

include network sound converted

/-- Whatever takes part judges a converted stage. -/
theorem stage_converted (traced : context.Traced whole value answer schema stage result final) :
    stage.Throughout context.Converted := by
  induction traced with
  | whole => exact converted
  | option _ _ _ ih => exact ih
  | component traced passed _ _ ih =>
    have sound := sound.reached traced.reaches
    refine passed.preserves (Value.Throughout context.Converted) ih
      (fun _ _ _ _ _ split _ judged _ held => ?_)
    refine answer_converted network (sound.facet ?_) held judged
    exact List.mem_append_left _ (split ▸ List.mem_append_right _ (.head _))
  | definition _ _ _ ih => exact ih
  | item _ _ there _ _ _ ih => exact ih.item (List.mem_of_getElem? there)
  | field _ _ _ _ _ there _ ih => exact ih.field (Fields.mem_of_lookup there)

/-- What is answered becomes what the answer has there. -/
theorem becomes (apart : answer.Throughout context.TypesApart)
    (traced : context.Traced whole value answer schema stage result final) :
    context.Becomes result final := by
  induction traced with
  | whole => exact becomes_self answer
  | option _ _ _ ih => exact ih
  | @component _ before after component stage item inner result final traced passed judged further
      ih =>
    have sound' := sound.reached traced.reaches
    have member : ∀ other ∈ component :: after, context.Sound other := fun other member =>
      sound'.facet (List.mem_append_right _ member)
    have apart' := traced.throughout apart typesApart_undefined
    have part := Traced.component traced passed judged further
    have held : inner.Throughout context.Converted :=
      answer_converted network (member _ (.head _)) (part.stage_converted network sound converted)
        judged
    refine (further.preserves (fun item => item.Throughout context.Converted ∧
      (context.Becomes item final → context.Becomes inner final)) ⟨held, id⟩ ?_).2 ih
    rintro _ other _ item inner' split _ judged' _ ⟨held, back⟩
    have sound := member other (.tail _ (split ▸ List.mem_append_right _ (.head _)))
    exact ⟨answer_converted network sound held judged',
      fun further => back (judged_becomes network sound held judged' apart' further)⟩
  | definition _ other _ ih => exact ih.of_named other
  | item _ _ _ answered held _ ih =>
    cases ih with
    | scalar plain => cases plain
    | array _ _ each =>
      obtain ⟨inside, rfl⟩ := List.getElem?_eq_some_iff.mp answered
      obtain ⟨inside', rfl⟩ := List.getElem?_eq_some_iff.mp held
      exact each _ inside inside'
  | field _ _ _ _ lies' _ _ ih =>
    cases ih with
    | scalar plain => cases plain
    | object _ each => exact each _ _ _ lies'

end

section

variable (network : context.settings = .fromNetwork) (sound : context.Sound whole)
  (accepted : context.Judges whole value (.accepted answer))

include sound accepted

/-- Where a union takes part, so does an option that it hands its stage on to. -/
theorem of_union {node : Nat} {choices : List Schema}
    (traced : context.Traced whole value answer (.union node choices) stage result final) :
    ∃ choice ∈ context.delegates stage (.union node choices),
      context.Traced whole value answer choice stage result final := by
  have step := (judged_step (sound.reached traced.reaches) (traced.judged accepted)).by_options
  obtain ⟨choice, member, judged⟩ := step.accepted_delegate fun _ _ => rfl
  exact ⟨choice, member, .option traced member judged⟩

/-- Where a name takes part that stands for no container, so does its definition. -/
theorem of_definition {ref : NamedRef} (other : (context.definitions ref).isContainer = false)
    (traced : context.Traced whole value answer (.named ref) stage result final) :
    ∃ first, result = first.withTags [.named ref] ∧
      context.Traced whole value answer (context.definitions ref) stage first final := by
  obtain ⟨inner, judged, tagged⟩ :=
    (judged_step (sound.reached traced.reaches) (traced.judged accepted)).by_definition other
  obtain ⟨first, rfl, rfl⟩ := accepted_of_map tagged
  exact ⟨first, rfl, .definition traced other judged⟩

include network

/-- Where an intersection takes part, so does each of its components. -/
theorem of_intersection {node : Nat} {components : List Schema} {component : Schema}
    (traced : context.Traced whole value answer (.intersection node components) stage result final)
    (member : component ∈ components) :
    ∃ item inner, context.Traced whole value answer component item inner final := by
  have verbatim := (Options.wired_of_network network).verbatim
  have own := sound.reached traced.reaches
  have chain := (judged_step own (traced.judged accepted)).by_components
  obtain ⟨before, after, item, inner, rfl, passed, judged, further⟩ :=
    (chain.passes (List.nil_subset _) fun component member item inner judged =>
      answer_grows verbatim (own.facet member) judged).at_component member
  exact ⟨item, inner, .component traced passed judged further⟩

/-- Whatever takes part sees, at its stage, what becomes of it in the answer. -/
theorem stage_becomes (converted : value.Throughout context.Converted)
    (apart : answer.Throughout context.TypesApart)
    (traced : context.Traced whole value answer schema stage result final) :
    context.Becomes stage final :=
  judged_becomes network (sound.reached traced.reaches)
    (traced.stage_converted network sound converted) (traced.judged accepted)
    (traced.throughout apart typesApart_undefined)
    (traced.becomes network sound converted apart)

end

end Traced

/-! ## Tags -/

/-- Each tag on the stage is that of a schema which took part where the final value is, and so it
is with the parts of the stage. -/
inductive TagsTraced (context : Context) (whole : Schema) (value answer : Value) :
    Value → Value → Prop
  | scalar {stage final : Value} (plain : stage.tags? = none) :
      TagsTraced context whole value answer stage final
  | array {content content' : Identity} {items items' : List Value} {tags tags' : Tags}
      (signed : ∀ tag ∈ tags, ∃ stage result, context.Traced whole value answer tag stage result
        (.array content' items' tags'))
      (each : ∀ (index : Nat) stage final, items[index]? = some stage →
        items'[index]? = some final → TagsTraced context whole value answer stage final) :
      TagsTraced context whole value answer (.array content items tags)
        (.array content' items' tags')
  | object {content content' : Identity} {fields fields' : Fields Value} {tags tags' : Tags}
      (signed : ∀ tag ∈ tags, ∃ stage result, context.Traced whole value answer tag stage result
        (.object content' fields' tags'))
      (each : ∀ inner outer key, context.Lies (· ∈ tags') tags inner outer key →
        TagsTraced context whole value answer (fields.lookup key) (fields'.lookup inner)) :
      TagsTraced context whole value answer (.object content fields tags)
        (.object content' fields' tags')

/-- Where there are no tags, none is missing. -/
theorem tagsTraced_of_bare (bare : stage.Throughout Value.Bare)
    (becomes : context.Becomes stage final) :
    context.TagsTraced whole value answer stage final := by
  induction stage using Value.contents_induction generalizing final with
  | step stage ih =>
  cases becomes with
  | scalar plain => exact .scalar plain
  | array more lengths each =>
    obtain rfl := bare.here.untagged
    refine .array (fun _ tagged => (nomatch tagged)) (fun index item part there held => ?_)
    obtain ⟨inside, rfl⟩ := List.getElem?_eq_some_iff.mp there
    obtain ⟨inside', rfl⟩ := List.getElem?_eq_some_iff.mp held
    have member := List.getElem_mem inside
    exact ih _ member (bare.item member) (each index inside inside')
  | @object content _ fields _ tags _ more each =>
    obtain rfl : tags = [] := bare.here.untagged
    refine .object (fun _ tagged => (nomatch tagged)) (fun inner outer key lies => ?_)
    cases there : (Fields.lookup key fields).isUndefined with
    | true =>
      rw [Value.eq_undefined there]
      exact .scalar rfl
    | false =>
      have member := Fields.mem_of_lookup there
      exact ih _ (List.mem_map_of_mem (f := Prod.snd) member) (bare.field member)
        (each _ _ _ lies)

/-- A name that took part signs what its definition answered. -/
theorem TagsTraced.named {ref : NamedRef} (other : (context.definitions ref).isContainer = false)
    (traced : context.Traced whole value answer (.named ref) stage
      (result.withTags [.named ref]) final)
    (signed : context.TagsTraced whole value answer result final) :
    context.TagsTraced whole value answer (result.withTags [.named ref]) final := by
  cases signed with
  | scalar plain =>
    cases result with
    | array => cases plain
    | object => cases plain
    | _ => exact .scalar rfl
  | array signed each =>
    refine .array (fun tag tagged => ?_) each
    rcases (Tags.mem_insert _ _ _).mp tagged with before | rfl
    · exact signed tag before
    · exact ⟨_, _, traced⟩
  | object signed each =>
    refine .object (fun tag tagged => ?_)
      (fun inner outer key lies => each inner outer key ((Lies.of_named other).mp lies))
    rcases (Tags.mem_insert _ _ _).mp tagged with before | rfl
    · exact signed tag before
    · exact ⟨_, _, traced⟩

variable (network : context.settings = .fromNetwork) (sound : context.Sound whole)
  (converted : value.Throughout context.Converted) (apart : answer.Throughout context.TypesApart)

include network sound converted apart

/-- Whatever takes part signs what it answers, and the rest is signed before. -/
theorem Traced.signed (accepted : context.Judges whole value (.accepted answer))
    (traced : context.Traced whole value answer schema stage result final)
    (signed : context.TagsTraced whole value answer stage final) :
    context.TagsTraced whole value answer result final := by
  obtain ⟨verbatim, wired, lone, keep⟩ := Options.wired_of_network network
  have own : context.Sound schema := sound.reached traced.reaches
  refine accepted_induction (motive := fun schema stage result => ∀ final,
    context.Traced whole value answer schema stage result final →
    context.TagsTraced whole value answer stage final →
    context.TagsTraced whole value answer result final) ?_ own own (traced.judged accepted) final
    traced signed
  clear own traced signed
  intro schema stage result own step final traced signed
  have becomes := traced.becomes network sound converted apart
  cases step with
  | leaf leaf judged =>
    rcases leaf_answer leaf own.here.knownFormats judged with rfl | ⟨_, loose⟩
    · exact signed
    · exact absurd verbatim loose
  | items place shape found count judged =>
    obtain ⟨content, tags, rfl⟩ := Validator.itemsOf?_eq_some lone found
    cases found
    cases becomes with
    | scalar plain => cases plain
    | array =>
    cases signed with
    | scalar plain => cases plain
    | array signed each =>
    refine .array (fun tag tagged => ?_) (fun index item part there held => ?_)
    · rcases (Tags.mem_insert _ _ _).mp tagged with before | rfl
      · exact signed tag before
      · exact ⟨_, _, traced⟩
    · obtain ⟨given, there', accepted, judged, further⟩ := forall₂_getElem?_right judged there
      exact further item rfl part (.item traced shape there' there held judged)
        (each index _ _ there' held)
  | fields place shape object judged =>
    subst object
    have names : (context.shape schema).DistinctNames :=
      (own.reached (reaches_shape context schema)).here.distinctNames
    rw [shape] at names
    rw [wired, keep, Bool.true_and] at judged
    have distinct := (traced.stage_converted network sound converted).here.keyed
    have apart' := (traced.throughout apart typesApart_undefined).here
    cases becomes with
    | scalar plain => cases plain
    | object more further =>
    cases signed with
    | scalar plain => cases plain
    | object signed each =>
    refine .object (fun tag tagged => ?_) (fun inner outer key lies => ?_)
    · rcases (Tags.mem_insert _ _ _).mp tagged with before | rfl
      · exact signed tag before
      · exact ⟨_, _, traced⟩
    · have tagged := more ((Tags.mem_insert _ _ _).mpr (.inr rfl))
      obtain ⟨before, lay, outcome⟩ :=
        lies.answered tagged shape distinct names (apart'.apart tagged shape) judged
      have earlier := each _ _ _ lay
      generalize same : Fields.lookup key _ = answer at outcome ⊢
      cases outcome with
      | absent missing none =>
        rw [Value.eq_undefined none]
        exact .scalar rfl
      | kept => exact earlier
      | judged some there judged =>
        subst same
        exact judged.2.2 _ rfl _ (.field traced shape some lay lies there judged.2.1) earlier
  | union shape judged =>
    subst shape
    obtain ⟨choice, member, _, judged, further⟩ := judged.accepted_delegate fun _ _ => rfl
    exact further _ rfl _ (.option traced member judged) signed
  | intersection shape judged =>
    subst shape
    have passes := judged.passes (List.nil_subset _) fun component member item inner part =>
      answer_grows verbatim part.1 part.2.1
    refine passes.preserves (context.TagsTraced whole value answer · final) signed
      (fun before component after item inner split passed part later held => ?_)
    subst split
    exact part.2.2 inner rfl final (.component traced (passed.imp fun _ _ _ all => all.2.1)
      part.2.1 (later.imp fun _ _ _ all => all.2.1)) held
  | named shape other judged tagged =>
    subst shape
    obtain ⟨first, rfl, rfl⟩ := accepted_of_map tagged
    exact .named other traced
      (judged.2.2 first rfl final (.definition traced other judged.2.1) signed)

variable (bare : value.Throughout Value.Bare)
  (accepted : context.Judges whole value (.accepted answer))

include bare accepted

/-- The answer is signed throughout, as the value had no tags. -/
theorem answer_tagsTraced : context.TagsTraced whole value answer answer answer := by
  have becomes := judged_becomes network sound converted accepted apart (becomes_self answer)
  exact Traced.whole.signed network sound converted apart accepted (tagsTraced_of_bare bare becomes)

/-- Every tag on what the answer has at a place is that of a schema which took part there. -/
theorem Traced.of_tag (traced : context.Traced whole value answer schema stage result final)
    {tag : Schema} (tagged : tag ∈ final.tags) :
    ∃ stage result, context.Traced whole value answer tag stage result final := by
  have signed : context.TagsTraced whole value answer final final := by
    clear tagged
    induction traced with
    | whole => exact answer_tagsTraced network sound converted apart bare accepted
    | option _ _ _ ih => exact ih
    | component _ _ _ _ ih => exact ih
    | definition _ _ _ ih => exact ih
    | item _ _ _ _ held _ ih =>
      cases ih with
      | scalar plain => cases plain
      | array _ each => exact each _ _ _ held held
    | field _ _ _ lies _ _ _ ih =>
      cases ih with
      | scalar plain => cases plain
      | object _ each => exact each _ _ _ lies.own
  cases signed with
  | scalar plain => rw [Value.tags, plain] at tagged; cases tagged
  | array signed => exact signed tag tagged
  | object signed => exact signed tag tagged

end Context

end Conform
