import Conform.Proofs.Discriminator.Dispatch
import Conform.Proofs.Discriminator.Marks

/-!
# What an answer carries

A container that is accepted is still of its kind, and has its tags in their order before
any new ones. The tags record what ran: every name and every anonymous container that the
value went through, down to an option of each union and to all components of each
intersection.
-/

namespace Conform

/-- The tags record that a container went through the schema. Only the schemas that accept
containers leave such a record. -/
inductive Tags.Carries (definitions : Definitions) (tags : Tags) : Schema → Prop
  | container {schema : Schema} (direct : schema.isContainer = true) (tagged : schema ∈ tags) :
      Carries definitions tags schema
  | named {ref : NamedRef} (tagged : .named ref ∈ tags)
      (behind : (definitions ref).isContainer = false →
        Carries definitions tags (definitions ref)) : Carries definitions tags (.named ref)
  | option {node : Nat} {choices : List Schema} {choice : Schema} (member : choice ∈ choices)
      (chosen : Carries definitions tags choice) : Carries definitions tags (.union node choices)
  | components {node : Nat} {components : List Schema}
      (each : ∀ component ∈ components, Carries definitions tags component) :
      Carries definitions tags (.intersection node components)
  | unknown : Carries definitions tags .unknown

namespace Tags

variable {definitions : Definitions} {tags tags' : Tags} {schema : Schema}

/-- More tags carry as much. -/
theorem Carries.more (carries : tags.Carries definitions schema) (more : tags ⊆ tags') :
    tags'.Carries definitions schema := by
  induction carries with
  | container direct tagged => exact .container direct (more tagged)
  | named tagged _ behind => exact .named (more tagged) behind
  | option member _ chosen => exact .option member chosen
  | components _ each => exact .components each
  | unknown => exact .unknown

/-- What judges as a container is carried by its own tag. -/
theorem carries_of_shape {context : Context} (tagged : schema ∈ tags)
    (container : (context.shape schema).isContainer = true) :
    tags.Carries context.definitions schema := by
  cases schema with
  | named ref =>
    apply Carries.named tagged
    intro other
    rw [Context.shape, other] at container
    cases container
  | array node items least most => exact .container rfl tagged
  | object node properties additional => exact .container rfl tagged
  | _ => cases container

end Tags

namespace Value

/-- Whether a value carries tags depends on its kind alone. -/
theorem isSome_tags?_of_kind {value other : Value} (same : value.kind = other.kind)
    (container : other.tags?.isSome = true) : value.tags?.isSome = true := by
  cases other <;> cases container <;> cases value <;> first | rfl | cases same

/-- The answer has the tags of the value before its own, none of them twice, and is of the same
kind unless it is a scalar. -/
structure Extends (value answer : Value) : Prop where
  kind : answer.tags?.isSome = true → value.kind = answer.kind
  before : value.tags <+: answer.tags
  distinct : answer.tags.Nodup

namespace Extends

variable {value answer further : Value}

/-- A value with distinct tags extends itself. -/
theorem refl (distinct : value.tags.Nodup) : value.Extends value :=
  ⟨fun _ => rfl, List.prefix_rfl, distinct⟩

/-- A scalar is extended by any scalar. -/
theorem scalar (bare : value.tags? = none) (bare' : answer.tags? = none) :
    value.Extends answer := by
  have none : value.tags = [] := by rw [tags, bare]; rfl
  have none' : answer.tags = [] := by rw [tags, bare']; rfl
  refine ⟨fun container => ?_, ?_, ?_⟩
  · rw [bare'] at container
    cases container
  · rw [none]
    exact List.nil_prefix
  · rw [none']
    exact List.nodup_nil

/-- What extends an extension extends the first value. -/
theorem trans (first : value.Extends answer) (second : answer.Extends further) :
    value.Extends further := by
  refine ⟨fun container => ?_, first.before.trans second.before, second.distinct⟩
  have same := second.kind container
  exact (first.kind (isSome_tags?_of_kind same container)).trans same

/-- Further tags extend an extension. -/
theorem withTags (upto : value.Extends answer) (schemas : List Schema) :
    value.Extends (answer.withTags schemas) := by
  have merged : (answer.withTags schemas).kind = answer.kind ∧
      answer.tags <+: (answer.withTags schemas).tags ∧ (answer.withTags schemas).tags.Nodup := by
    cases answer with
    | array content items tags =>
      exact ⟨rfl, Tags.isPrefix_merge tags schemas, Tags.nodup_merge upto.distinct schemas⟩
    | object content fields tags =>
      exact ⟨rfl, Tags.isPrefix_merge tags schemas, Tags.nodup_merge upto.distinct schemas⟩
    | _ => exact ⟨rfl, List.prefix_rfl, upto.distinct⟩
  obtain ⟨kind, later, distinct⟩ := merged
  refine ⟨fun container => ?_, upto.before.trans later, distinct⟩
  rw [kind]
  apply upto.kind
  cases answer <;> first | rfl | cases container

end Extends

/-- A container is given the tags asked for, and keeps its own. -/
theorem subset_tags_withTags {value : Value} {schemas : List Schema}
    (container : (value.withTags schemas).tags?.isSome = true) :
    value.tags?.isSome = true ∧ schemas ⊆ (value.withTags schemas).tags ∧
      value.tags ⊆ (value.withTags schemas).tags := by
  cases value with
  | array content items tags =>
    exact ⟨rfl, fun _ member => (Tags.mem_merge _ _ _).mpr (.inr member),
      fun _ member => (Tags.mem_merge _ _ _).mpr (.inl member)⟩
  | object content fields tags =>
    exact ⟨rfl, fun _ member => (Tags.mem_merge _ _ _).mpr (.inr member),
      fun _ member => (Tags.mem_merge _ _ _).mpr (.inl member)⟩
  | _ => cases container

end Value

namespace Context

variable {context : Context} {schema : Schema} {value answer : Value}

/-- A leaf answers the value as it came, or a scalar with a scalar. -/
theorem leaf_extends (leaf : schema.isLeaf = true) (known : schema.KnownFormats context.format)
    (distinct : value.tags.Nodup) (judged : context.Judges schema value (.accepted answer)) :
    value.Extends answer := by
  by_cases any : schema = .unknown
  · subst any
    have ended := leaf_settled leaf known judged 0 (.run 0)
    have same := Verdict.accepted.inj (Except.ok.inj ended)
    exact same ▸ .refl distinct
  · have bare := leaf_scalar leaf known any judged
    rcases leaf_answer leaf known judged with rfl | ⟨bare', _⟩
    · exact .refl distinct
    · exact .scalar bare bare'

/-- A leaf that accepts a container is unknown, and asks for no tag. -/
theorem leaf_carries (leaf : schema.isLeaf = true) (known : schema.KnownFormats context.format)
    (extended : value.Extends answer) (container : answer.tags?.isSome = true)
    (judged : context.Judges schema value (.accepted answer)) :
    answer.tags.Carries context.definitions schema := by
  by_cases any : schema = .unknown
  · subst any
    exact .unknown
  · have bare := leaf_scalar leaf known any judged
    have some := Value.isSome_tags?_of_kind (extended.kind container) container
    rw [bare] at some
    cases some

/-- The answer extends the value, and carries the schema when it is a container. -/
def Recorded (context : Context) (schema : Schema) (value answer : Value) : Prop :=
  value.tags.Nodup → value.Extends answer ∧
    (answer.tags?.isSome = true → answer.tags.Carries context.definitions schema)

/-- Components that record what ran do so one after the other. -/
theorem recorded_of_chain {node : Nat} {components : List Schema}
    {judges : Schema → Value → Verdict → Prop}
    (chain : Validator.Chain judges components value [] (.accepted answer))
    (each : ∀ component item answer, judges component item (.accepted answer) →
      context.Recorded component item answer) :
    context.Recorded (.intersection node components) value answer := by
  intro distinct
  -- the components that are done are carried by what they have made of the value
  have all := chain.accumulates (fun done item => value.Extends item ∧
      (item.tags?.isSome = true →
        ∀ component ∈ done, item.tags.Carries context.definitions component))
    [] ⟨.refl distinct, fun _ _ member => by cases member⟩ (List.nil_subset _) ?_
  · exact ⟨all.1, fun container => .components (all.2 container)⟩
  · intro done component _ item answer before judged
    obtain ⟨extended, carried⟩ := before
    obtain ⟨further, own⟩ := each component item answer judged extended.distinct
    have more : item.tags ⊆ answer.tags := further.before.subset
    refine ⟨⟨extended.trans further, fun container => ?_⟩, more⟩
    intro other member
    rcases List.mem_append.mp member with earlier | last
    · have between := Value.isSome_tags?_of_kind (further.kind container) container
      exact (carried between other earlier).more more
    · rw [List.mem_singleton.mp last]
      exact own container

/-- Every judgement that accepts records what ran. -/
theorem recorded_of_judged (lone : context.settings.allowConvertForArrayType = false)
    (sound : context.Sound schema) (judged : context.Judges schema value (.accepted answer)) :
    context.Recorded schema value answer := by
  refine accepted_induction (motive := context.Recorded) ?_ sound sound judged
  intro schema value answer sound step
  cases step with
  | leaf leaf judged =>
    intro distinct
    have extended := leaf_extends leaf sound.here.knownFormats distinct judged
    exact ⟨extended, fun container =>
      leaf_carries leaf sound.here.knownFormats extended container judged⟩
  | items place shape found count judged =>
    intro distinct
    obtain ⟨content, tags, rfl⟩ := Validator.itemsOf?_eq_some lone found
    refine ⟨⟨fun _ => rfl, Tags.isPrefix_merge _ _, Tags.nodup_merge distinct _⟩, fun _ => ?_⟩
    apply Tags.carries_of_shape
    · exact (Tags.mem_merge _ _ _).mpr (.inr (.head _))
    · rw [shape]
      rfl
  | fields place shape object judged =>
    intro distinct
    subst object
    refine ⟨⟨fun _ => rfl, Tags.isPrefix_insert _ _, Tags.nodup_insert distinct _⟩, fun _ => ?_⟩
    apply Tags.carries_of_shape
    · exact (Tags.mem_insert _ _ _).mpr (.inr rfl)
    · rw [shape]
      rfl
  | union shape judged =>
    intro distinct
    subst shape
    obtain ⟨choice, member, _, _, recorded⟩ := judged.accepted
    obtain ⟨extended, carried⟩ := recorded answer rfl distinct
    exact ⟨extended, fun container => .option member (carried container)⟩
  | intersection shape chain =>
    subst shape
    exact recorded_of_chain chain (fun component item answer judged => judged.2.2 answer rfl)
  | named shape other judged tagged =>
    intro distinct
    subst shape
    obtain ⟨first, rfl, rfl⟩ := accepted_of_map tagged
    obtain ⟨extended, carried⟩ := judged.2.2 first rfl distinct
    refine ⟨extended.withTags _, fun container => ?_⟩
    obtain ⟨before, given, kept⟩ := Value.subset_tags_withTags container
    exact .named (given (.head _)) (fun _ => (carried before).more kept)

/-- Tags only grow and record what ran: a container that is accepted comes from one of the same
kind, whose tags stand before the new ones, none of them twice, and carries the schema. -/
theorem answer_carries (lone : context.settings.allowConvertForArrayType = false)
    (sound : context.Sound schema) (distinct : value.tags.Nodup)
    (judged : context.Judges schema value (.accepted answer))
    (container : answer.tags?.isSome = true) :
    value.kind = answer.kind ∧ value.tags <+: answer.tags ∧ answer.tags.Nodup ∧
      answer.tags.Carries context.definitions schema := by
  obtain ⟨extended, carried⟩ := recorded_of_judged lone sound judged distinct
  exact ⟨extended.kind container, extended.before, extended.distinct, carried container⟩

end Context

namespace Shapes

/-- The group that is accepted carries its name and that of any shape. -/
theorem drawing_carries :
    let context : Context := ⟨definitions, fun _ => none, .strict⟩
    ∃ answer, context.Judges shape drawing (.accepted answer) ∧
      drawing.kind = answer.kind ∧ drawing.tags <+: answer.tags ∧ answer.tags.Nodup ∧
        answer.tags.Carries definitions shape := by
  intro context
  obtain ⟨answer, ended, container⟩ : ∃ answer,
      context.attempt 20 shape (.run 3) drawing = .ok (.accepted answer) ∧
        answer.tags?.isSome = true := by
    refine ⟨_, rfl, ?_⟩
    rfl
  have judged : context.Judges shape drawing (.accepted answer) := ⟨20, .run 3, ended⟩
  exact ⟨answer, judged,
    Context.answer_carries rfl (sound _ _ (.head _)) (by decide) judged container⟩

end Shapes

end Conform
