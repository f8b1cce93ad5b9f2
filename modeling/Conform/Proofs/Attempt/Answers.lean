import Conform.Proofs.Attempt.Concord
import Conform.Proofs.Attempt.Leaves

/-!
# What answers keep

An object is answered with fields of the same keys. When keys are read as they are here, a field
is answered for the one under its key. When strings are taken as they are, a value is answered by
a value, and the absence of one by its absence.
-/

namespace Conform

namespace Value

/-- The keys of an object are distinct. -/
def Keyed : Value → Prop
  | .object _ fields _ => Fields.Distinct fields
  | _ => True

/-- A value as it is read: no tags at the top, and distinct keys. -/
@[mk_iff]
structure Bare (value : Value) : Prop where
  untagged : value.tags = []
  keyed : value.Keyed

/-- The value under a key, or the absence of a value. -/
def field (key : String) : Value → Value
  | .object _ fields _ => Fields.lookup key fields
  | _ => .undefined

/-- Tags do not touch the keys. -/
@[simp] theorem keyed_withTags (value : Value) (schemas : List Schema) :
    (value.withTags schemas).Keyed ↔ value.Keyed := by
  cases value <;> exact Iff.rfl

/-- Tags do not touch the fields. -/
@[simp] theorem field_withTags (key : String) (value : Value) (schemas : List Schema) :
    (value.withTags schemas).field key = value.field key := by
  cases value <;> rfl

/-- Tags do not touch what a value stands for. -/
@[simp] theorem literal?_withTags (value : Value) (schemas : List Schema) :
    (value.withTags schemas).literal? = value.literal? := by
  cases value <;> rfl

/-- Further tags leave a tag where it is. -/
theorem hasTag_withTags {value : Value} {schemas : List Schema} {schema : Schema}
    (tag : value.hasTag schema = true) : (value.withTags schemas).hasTag schema = true := by
  unfold hasTag tags tags? at tag
  cases value with
  | array content items tags =>
    exact (Tags.has_eq_true_iff _ _).mpr ((Tags.mem_merge _ _ _).mpr
      (.inl ((Tags.has_eq_true_iff _ _).mp tag)))
  | object content fields tags =>
    exact (Tags.has_eq_true_iff _ _).mpr ((Tags.mem_merge _ _ _).mpr
      (.inl ((Tags.has_eq_true_iff _ _).mp tag)))
  | _ => exact tag

/-- A tag comes from the value or is one of the further tags. -/
theorem of_hasTag_withTags {value : Value} {schemas : List Schema} {schema : Schema}
    (tag : (value.withTags schemas).hasTag schema = true) :
    value.hasTag schema = true ∨ schema ∈ schemas := by
  cases value with
  | array content items tags =>
    rw [hasTag, Tags.has_eq_true_iff] at tag ⊢
    exact (Tags.mem_merge _ _ _).mp tag
  | object content fields tags =>
    rw [hasTag, Tags.has_eq_true_iff] at tag ⊢
    exact (Tags.mem_merge _ _ _).mp tag
  | _ => exact .inl tag

/-- There is one value that is none. -/
theorem eq_undefined {value : Value} (none : value.isUndefined = true) : value = .undefined := by
  cases value <;> first | rfl | cases none

/-- What denotes a literal is there. -/
theorem isUndefined_of_literal? {value : Value} {literal : Literal}
    (denoted : value.literal? = some literal) : value.isUndefined = false := by
  cases value <;> first | rfl | cases denoted

/-- No container denotes a literal. -/
theorem tags?_of_literal? {value : Value} {literal : Literal}
    (denoted : value.literal? = some literal) : value.tags? = none := by
  cases value <;> first | rfl | cases denoted

end Value

/-- When keys are distinct, a field is the one found under its key. -/
theorem Fields.lookup_of_mem {fields : Fields Value} (distinct : fields.Distinct) {key : String}
    {value : Value} (member : (key, value) ∈ fields) : fields.lookup key = value := by
  rw [Fields.lookup, Fields.get?_of_mem distinct member]
  rfl

namespace Validator

variable {judges : Schema → Value → Verdict → Prop} {wire drop : Bool}
  {properties : List (Property Schema)} {additional : Additional Schema}
  {fields answers : Fields Value}

/-- The declared fields of an answer are in the order of the properties. -/
theorem keys_declaredAnswers_sublist {found : String → Option Value} :
    List.Sublist (declaredAnswers properties found).keys (Property.names properties) := by
  induction properties with
  | nil => exact .slnil
  | cons property rest ih =>
    simp only [declaredAnswers, List.filterMap_cons] at ih ⊢
    cases found property.name with
    | none => exact ih.cons _
    | some answer => exact ih.cons_cons _

/-- The other fields of an answer are in the order in which they were found. -/
theorem OthersStep.keys_sublist {others extras : Fields Value}
    (step : OthersStep judges drop additional others extras) :
    List.Sublist extras.keys others.keys := by
  cases additional with
  | keep =>
    obtain rfl : extras = others := step
    exact List.Sublist.refl _
  | deny =>
    obtain ⟨rfl, _⟩ := step
    exact List.nil_sublist _
  | each body =>
    rw [← Fields.keys_eq_of_forall₂ step (fun _ _ both => both.1)]

/-- A name of a declared property is no key of the remaining fields. -/
theorem name_notMem_keys_otherFields {property : Property Schema}
    (member : property ∈ properties) :
    property.name ∉ (otherFields wire properties fields).keys := by
  intro among
  obtain ⟨⟨key, value⟩, inside, rfl⟩ := List.mem_map.mp among
  obtain ⟨_, untaken, _⟩ := mem_otherFields.mp inside
  have taken : isTaken wire properties property.name = true :=
    List.any_eq_true.mpr ⟨property, member, by simp⟩
  rw [taken] at untaken
  cases untaken

/-- The answers of an object have distinct keys when its fields have. -/
theorem FieldsStep.distinct (names : (Property.names properties).Nodup)
    (distinct : fields.Distinct)
    (step : FieldsStep judges wire drop properties additional fields answers) :
    answers.Distinct := by
  obtain ⟨found, extras, permitted, declared, others⟩ := step
  have kept := others.keys_sublist
  unfold Fields.Distinct at distinct ⊢
  have appended : Fields.keys (declaredAnswers properties found ++ extras) =
      (declaredAnswers properties found).keys ++ extras.keys := List.map_append
  rw [appended, List.nodup_append']
  refine ⟨names.sublist keys_declaredAnswers_sublist, ?_, ?_⟩
  · exact (distinct.sublist (List.filter_sublist.map Prod.fst)).sublist kept
  · intro key early late
    obtain ⟨property, member, rfl⟩ :=
      List.mem_map.mp (keys_declaredAnswers_sublist.subset early)
    exact name_notMem_keys_otherFields member (kept.subset late)

/-- A property with a value has an answer under its name. -/
theorem FieldsStep.mem_of_read
    (step : FieldsStep judges wire drop properties additional fields answers)
    {property : Property Schema} (member : property ∈ properties)
    (there : (fields.lookup (readKey wire property)).isUndefined = false) :
    ∃ result, judges property.body (fields.lookup (readKey wire property)) (.accepted result) ∧
      (property.name, result) ∈ answers := by
  obtain ⟨found, extras, _, declared, _⟩ := step
  have step := declared property member
  cases answered : found property.name with
  | none =>
    rw [answered] at step
    cases step with
    | absent missing _ => cases missing.symm.trans there
  | some result =>
    rw [answered] at step
    have named : (property.name, result) ∈ declaredAnswers properties found :=
      mem_declaredAnswers.mpr ⟨property, member, rfl, answered⟩
    cases step with
    | present _ judged => exact ⟨result, judged, List.mem_append_left _ named⟩

/-- A property with a value is answered. -/
theorem FieldsStep.name_mem_keys
    (step : FieldsStep judges wire drop properties additional fields answers)
    {property : Property Schema} (member : property ∈ properties)
    (there : (fields.lookup (readKey wire property)).isUndefined = false) :
    property.name ∈ answers.keys := by
  obtain ⟨result, _, inside⟩ := step.mem_of_read member there
  exact Fields.mem_keys inside

/-- Every other field is answered, unless such fields are dropped. -/
theorem FieldsStep.key_mem_keys
    (step : FieldsStep judges wire false properties additional fields answers)
    {entry : String × Value} (member : entry ∈ otherFields wire properties fields) :
    entry.1 ∈ answers.keys := by
  obtain ⟨found, extras, _, _, others⟩ := step
  have answered : entry.1 ∈ extras.keys := by
    cases additional with
    | keep =>
      obtain rfl : extras = otherFields wire properties fields := others
      exact List.mem_map_of_mem member
    | deny =>
      rcases others.2 with drops | none
      · cases drops
      · rw [none] at member
        cases member
    | each body =>
      rw [← Fields.keys_eq_of_forall₂ others (fun _ _ both => both.1)]
      exact List.mem_map_of_mem member
  obtain ⟨entry', inside, same⟩ := List.mem_map.mp answered
  exact List.mem_map.mpr ⟨entry', List.mem_append_right _ inside, same⟩

/-- Where keys are read as they are here, a field is answered for the one under its key. -/
theorem FieldsStep.under_key {key : String} {answer : Value}
    (step : FieldsStep judges false drop properties additional fields answers)
    (member : (key, answer) ∈ answers) :
    ∃ item, (key, item) ∈ fields ∧ item.isUndefined = false ∧
      ((additional = .keep ∧ answer = item) ∨
        ∃ body ∈ properties.map Property.body ++ additional.bodies,
          judges body item (.accepted answer)) := by
  rcases step.origin member with ⟨property, listed, rfl, there, judged⟩ | ⟨value, inside, how⟩
  · rw [readKey_false] at there judged
    have inside := additional.declared_mem listed
    exact ⟨_, Fields.mem_of_lookup there, there, .inr ⟨property.body, inside, judged⟩⟩
  · obtain ⟨read, _, there⟩ := mem_otherFields.mp inside
    refine ⟨value, read, there, ?_⟩
    rcases how with keep | ⟨body, typed, judged⟩
    · exact .inl keep
    · exact .inr ⟨body, Additional.each_mem properties typed, judged⟩

/-- Where nothing is dropped, every field with a value is answered. -/
theorem FieldsStep.mem_keys_of_lookup
    (step : FieldsStep judges false false properties additional fields answers) {key : String}
    (there : (fields.lookup key).isUndefined = false) : key ∈ answers.keys := by
  cases taken : isTaken false properties key with
  | true =>
    obtain ⟨property, listed, rfl⟩ := List.mem_map.mp ((isTaken_false properties key).mp taken)
    exact step.name_mem_keys listed (by rwa [readKey_false])
  | false =>
    have other : (key, fields.lookup key) ∈ otherFields false properties fields :=
      mem_otherFields.mpr ⟨Fields.mem_of_lookup there, taken, there⟩
    exact step.key_mem_keys other

end Validator

namespace Context

variable {context : Context} {schema : Schema}

/-! ## Unions by the value at a key -/

section

variable {judges : Schema → Value → Verdict → Prop} {choices : List Schema} {value : Value}
  {verdict : Verdict}

/-- Off the wire a discriminator selects by the value at its own key. -/
theorem selection?_of_inward (inward : context.settings.convertFromNetwork = false)
    (discriminator : Discriminator) (choices : List Schema) (value : Value) :
    context.selection? discriminator choices value =
      discriminator.chosen? choices (value.field discriminator.key) := by
  cases value with
  | object content fields tags =>
    rw [selection?, decisive, Validator.dispatchKey_of_inward inward]
    rfl
  | _ => rfl

/-- A union with a discriminator judges by the option that the value at the key selects.
Where it selects none, the options left aside are tried, if there are any. -/
theorem UnionStep.decided (inward : context.settings.convertFromNetwork = false)
    {discriminator : Discriminator}
    (found : Discriminator.find? context.definitions choices = some discriminator)
    (step : context.UnionStep judges choices value verdict) :
    (∃ choice, discriminator.chosen? choices (value.field discriminator.key) = some choice ∧
        judges choice value verdict) ∨
      (discriminator.chosen? choices (value.field discriminator.key) = none ∧
        ((discriminator.rest = [] ∧ verdict.isAccepted = false) ∨
          ∃ verdicts, List.Forall₂ (fun choice verdict => judges choice value verdict)
              (discriminator.aside choices) verdicts ∧
            context.tallied (discriminator.aside choices) value verdicts = verdict)) := by
  have selection := step.by_selection found
  rw [selection?_of_inward inward] at selection
  refine selection.imp_right (And.imp_right (Or.imp_left ?_))
  rintro ⟨complete, violations, rfl⟩
  exact ⟨complete, rfl⟩

end

/-- A value is answered by a value, and the absence of one by its absence. -/
theorem answer_isUndefined (verbatim : context.settings.Verbatim) (sound : context.Sound schema)
    {value answer : Value} (judged : context.Judges schema value (.accepted answer)) :
    answer.isUndefined = value.isUndefined := by
  refine accepted_induction (motive := fun _ value answer =>
    answer.isUndefined = value.isUndefined) ?_ sound sound judged
  intro schema value answer sound step
  cases step with
  | leaf leaf judged =>
    rcases leaf_answer leaf sound.here.knownFormats judged with rfl | ⟨_, loose⟩
    · rfl
    · exact absurd verbatim loose
  | items place shape found count judged =>
    cases value <;> first | rfl | cases found
  | fields place shape object judged =>
    subst object
    rfl
  | union shape judged =>
    obtain ⟨_, _, _, _, same⟩ := judged.accepted
    exact same answer rfl
  | intersection shape judged =>
    have start : value.isUndefined = value.isUndefined := rfl
    obtain ⟨last, tags, same, rfl⟩ := judged.accepted start
      (fun component _ item answer same judged => (judged.2.2 answer rfl).trans same)
    rw [Value.isUndefined_withTags, same]
  | named shape other judged tagged =>
    obtain ⟨first, rfl, rfl⟩ := accepted_of_map tagged
    rw [Value.isUndefined_withTags]
    exact judged.2.2 first rfl

end Context

end Conform
