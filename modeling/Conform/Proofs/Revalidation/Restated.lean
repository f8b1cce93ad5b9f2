import Conform.Proofs.Revalidation.Agreement

/-!
# Answers restate what they are for

Under strict options an answer agrees with its value. It has distinct keys where the value
has, and no fields without a value where the value has none.
-/

namespace Conform

/-- The answer says what the value says. -/
structure Value.Restates (value answer : Value) : Prop where
  agrees : value.Agrees answer
  keyed : answer.Throughout Value.Keyed
  filled : value.Throughout Value.Filled → answer.Throughout Value.Filled

namespace Value.Restates

variable {value middle answer : Value}

/-- A value restates itself. -/
theorem refl (keyed : value.Throughout Keyed) : value.Restates value :=
  ⟨.refl value, keyed, id⟩

/-- What restates a restatement restates the first value. -/
theorem trans (first : value.Restates middle) (second : middle.Restates answer) :
    value.Restates answer :=
  ⟨first.agrees.trans second.agrees, second.keyed, second.filled ∘ first.filled⟩

/-- Tags are no part of what is restated. -/
theorem withTags (restates : value.Restates answer) (schemas : List Schema) :
    value.Restates (answer.withTags schemas) where
  agrees := restates.agrees.trans (.withTags answer schemas)
  keyed := restates.keyed.withTags ((keyed_withTags answer schemas).mpr restates.keyed.here)
  filled everywhere := by
    have filled := restates.filled everywhere
    apply filled.withTags
    cases answer <;> exact filled.here

end Value.Restates

namespace Validator

variable {judges : Schema → Value → Verdict → Prop} {properties : List (Property Schema)}
  {additional : Additional Schema} {fields answers : Fields Value}

/-- An object whose bodies restate is restated. -/
theorem FieldsStep.restates {content place : Identity} {tags tags' : Tags}
    (names : (Property.names properties).Nodup)
    (keyed : (Value.object content fields tags).Throughout Value.Keyed)
    (each : ∀ body ∈ properties.map Property.body ++ additional.bodies, ∀ item answer,
      item.Throughout Value.Keyed → judges body item (.accepted answer) → item.Restates answer)
    (step : FieldsStep judges false false properties additional fields answers) :
    (Value.object content fields tags).Restates (.object place answers tags') := by
  have distinct : Fields.Distinct fields := keyed.here
  have distinct' : answers.Distinct := step.distinct names distinct
  have sources : ∀ key answer, (key, answer) ∈ answers →
      ∃ item, (key, item) ∈ fields ∧ item.isUndefined = false ∧ item.Restates answer := by
    intro key answer member
    obtain ⟨item, inside, there, how⟩ := step.under_key member
    refine ⟨item, inside, there, ?_⟩
    rcases how with ⟨_, rfl⟩ | ⟨body, listed, judged⟩
    · exact .refl (keyed.field inside)
    · exact each body listed item answer (keyed.field inside) judged
  refine ⟨.object (fun key forbidden => ?_) (fun key => ?_), ?_, fun filled => ?_⟩
  · have permitted : key ∉ fields.keys := by
      intro member
      obtain ⟨_, _, permitted, _, _⟩ := step
      obtain ⟨value, inside⟩ := Fields.exists_mem_of_mem_keys member
      exact permitted _ inside forbidden
    refine ⟨fun member => absurd member permitted, fun member => ?_⟩
    obtain ⟨answer, inside⟩ := Fields.exists_mem_of_mem_keys member
    obtain ⟨item, source, _⟩ := sources key answer inside
    exact Fields.mem_keys source
  · by_cases answered : key ∈ answers.keys
    · obtain ⟨answer, inside⟩ := Fields.exists_mem_of_mem_keys answered
      obtain ⟨item, source, _, restates⟩ := sources key answer inside
      rw [Fields.lookup_of_mem distinct source, Fields.lookup_of_mem distinct' inside]
      exact restates.agrees
    · have missing : fields.lookup key = .undefined := by
        by_contra there
        refine answered (step.mem_keys_of_lookup (Bool.eq_false_iff.mpr fun missing => ?_))
        exact there (Value.eq_undefined missing)
      rw [missing, Fields.lookup, Fields.get?_eq_none_iff.mpr answered]
      exact .undefined
  · refine Value.throughout_object_iff.mpr ⟨distinct', fun entry member => ?_⟩
    obtain ⟨item, _, _, restates⟩ := sources entry.1 entry.2 member
    exact restates.keyed
  · refine Value.throughout_object_iff.mpr ⟨fun entry member => ?_, fun entry member => ?_⟩
    · obtain ⟨item, _, there, restates⟩ := sources entry.1 entry.2 member
      rw [← restates.agrees.isUndefined_eq, there]
    · obtain ⟨item, source, _, restates⟩ := sources entry.1 entry.2 member
      exact restates.filled (filled.field source)

end Validator

namespace Context

variable {context : Context} {schema : Schema}

namespace Supply

variable {supply : context.Supply}

/-- Every answer restates the value it is for, whenever the validators were made. -/
theorem answer_restates (strict : context.settings = .strict) (sound : context.Sound schema)
    {value answer : Value} (keyed : value.Throughout Value.Keyed)
    (judged : supply.Judges schema value (.accepted answer)) : value.Restates answer := by
  have faithful : context.settings.Faithful := strict ▸ Options.strict_faithful
  obtain ⟨verbatim, inward, lone, keep⟩ := faithful
  revert keyed
  refine accepted_induction (motive := fun _ value answer =>
    value.Throughout Value.Keyed → value.Restates answer) ?_ sound sound judged
  intro schema value answer sound step keyed
  cases step with
  | leaf leaf judged =>
    rcases leaf_answer leaf sound.here.knownFormats judged with rfl | ⟨_, loose⟩
    · exact .refl keyed
    · exact absurd verbatim loose
  | @items node items least most list answers place shape found count judged =>
    obtain ⟨content, tags, rfl⟩ := Validator.itemsOf?_eq_some lone found
    cases found
    have each : List.Forall₂ Value.Restates list answers := by
      refine forall₂_imp_of_mem judged ?_
      rintro item member answer ⟨_, _, restates⟩
      exact restates answer rfl (keyed.item member)
    refine ⟨.items (each.imp fun _ _ restates => restates.agrees), ?_, fun filled => ?_⟩
    · refine Value.throughout_array_iff.mpr ⟨trivial, fun answer member => ?_⟩
      obtain ⟨item, _, restates⟩ := forall₂_mem_right each member
      exact restates.keyed
    · refine Value.throughout_array_iff.mpr ⟨trivial, fun answer member => ?_⟩
      obtain ⟨item, inside, restates⟩ := forall₂_mem_right each member
      exact restates.filled (filled.item inside)
  | @fields node properties additional content fields answers tags place shape object judged =>
    subst object
    have names : (context.shape schema).DistinctNames :=
      (sound.reached (reaches_shape context schema)).here.distinctNames
    rw [shape] at names
    rw [inward, keep, Bool.false_and] at judged
    exact judged.restates names keyed (fun body _ item answer keyed judged =>
      judged.2.2 answer rfl keyed)
  | union shape judged =>
    obtain ⟨choice, _, _, _, restates⟩ := judged.accepted
    exact restates answer rfl keyed
  | intersection shape judged =>
    obtain ⟨last, tags, restates, rfl⟩ := judged.accepted (Value.Restates.refl keyed)
      (fun component _ item answer restates judged =>
        restates.trans (judged.2.2 answer rfl restates.keyed))
    exact restates.withTags tags
  | @named ref inner verdict shape other judged tagged =>
    obtain ⟨first, rfl, rfl⟩ := accepted_of_map tagged
    exact (judged.2.2 first rfl keyed).withTags [schema]

end Supply

/-- Every answer restates the value it is for. -/
theorem answer_restates (strict : context.settings = .strict) (sound : context.Sound schema)
    {value answer : Value} (keyed : value.Throughout Value.Keyed)
    (judged : context.Judges schema value (.accepted answer)) : value.Restates answer :=
  Supply.answer_restates strict sound keyed (judges_own_iff.mpr judged)

end Context

end Conform
