import Conform.Proofs.Revalidation.Restated

/-!
# Answers without what has no value

Under strict options an answer has the data of its value. All that may differ is the order
of fields, and fields without a value, of which some may be missing. No field is new, and
every number is the number that it was, not only one that compares equal.

Agreement of values is too weak for this: it cannot tell a field without a value from no
field in either direction, so it would let an answer have further ones.
-/

namespace Conform

namespace Value

/-- The same data, where an object may lack some fields without a value and may have the
others in another order. Tags and identities are not looked at. -/
inductive Trimmed : Value → Value → Prop
  | undefined : Trimmed .undefined .undefined
  | null : Trimmed .null .null
  | bool (value : Bool) : Trimmed (.bool value) (.bool value)
  | number (value : Number) : Trimmed (.number value) (.number value)
  | string (value : String) : Trimmed (.string value) (.string value)
  | array {content content' : Identity} {items items' : List Value} {tags tags' : Tags}
      (lengths : items.length = items'.length)
      (each : ∀ (index : Nat) (inside : index < items.length) (inside' : index < items'.length),
        Trimmed items[index] items'[index]) :
      Trimmed (.array content items tags) (.array content' items' tags')
  | object {content content' : Identity} {fields fields' : Fields Value} {tags tags' : Tags}
      (distinct : Fields.Distinct fields')
      (known : ∀ key ∈ fields'.keys, key ∈ fields.keys)
      (kept : ∀ key : String, (fields.lookup key).isUndefined = false → key ∈ fields'.keys)
      (each : ∀ key ∈ fields'.keys, Trimmed (fields.lookup key) (fields'.lookup key)) :
      Trimmed (.object content fields tags) (.object content' fields' tags')

namespace Trimmed

variable {value middle answer : Value}

/-- What is trimmed is there when it was there before. -/
theorem isUndefined_eq (trimmed : Trimmed value answer) :
    value.isUndefined = answer.isUndefined := by
  cases trimmed <;> rfl

/-- Fields that stay as they are stay under any tags. -/
theorem refl_of_fields {content content' : Identity} {fields : Fields Value} {tags tags' : Tags}
    (distinct : fields.Distinct) (each : ∀ entry ∈ fields, Trimmed entry.2 entry.2) :
    Trimmed (.object content fields tags) (.object content' fields tags') := by
  refine .object distinct (fun _ => id) (fun key there => ?_) (fun key member => ?_)
  · exact Fields.mem_keys (Fields.mem_of_lookup there)
  · obtain ⟨held, inside⟩ := Fields.exists_mem_of_mem_keys member
    rw [Fields.lookup_of_mem distinct inside]
    exact each _ inside

/-- Nothing has to be missing. -/
theorem refl (keyed : value.Throughout Keyed) : Trimmed value value := by
  induction value using contents_induction with
  | step value ih =>
  cases value with
  | undefined => exact .undefined
  | null => exact .null
  | bool value => exact .bool value
  | number value => exact .number value
  | string value => exact .string value
  | array content items tags =>
    refine .array rfl (fun index inside _ => ?_)
    have member := List.getElem_mem inside
    exact ih items[index] member (keyed.item member)
  | object content fields tags =>
    refine refl_of_fields keyed.here (fun entry member => ?_)
    exact ih entry.2 (List.mem_map_of_mem member) (keyed.field member)

/-- What is trimmed twice is trimmed. -/
theorem trans (first : Trimmed value middle) (second : Trimmed middle answer) :
    Trimmed value answer := by
  induction first generalizing answer with
  | undefined => exact second
  | null => exact second
  | bool value => exact second
  | number value => exact second
  | string value => exact second
  | array lengths each ih =>
    cases second with
    | array lengths' each' =>
      refine .array (lengths.trans lengths') (fun index inside inside' => ?_)
      exact ih index inside (lengths ▸ inside) (each' index (lengths ▸ inside) inside')
  | object distinct known kept each ih =>
    cases second with
    | object distinct' known' kept' each' =>
      refine .object distinct' (fun key member => known key (known' key member))
        (fun key there => ?_) (fun key member => ih key (known' key member) (each' key member))
      -- what has a value in the first has the same in the second
      have member := kept key there
      exact kept' key ((each key member).isUndefined_eq ▸ there)

/-- What is left has distinct keys. -/
theorem keyed (trimmed : Trimmed value answer) : answer.Throughout Keyed := by
  induction trimmed with
  | array lengths each ih =>
    refine throughout_array_iff.mpr ⟨trivial, fun item member => ?_⟩
    obtain ⟨index, inside, rfl⟩ := List.getElem_of_mem member
    exact ih index (lengths ▸ inside) inside
  | object distinct known kept each ih =>
    refine throughout_object_iff.mpr ⟨distinct, fun entry member => ?_⟩
    rw [← Fields.lookup_of_mem distinct member]
    exact ih entry.1 (Fields.mem_keys member)
  | _ => exact (throughout_scalar_iff rfl).mpr trivial

/-- Tags are not looked at. -/
theorem withTags (trimmed : Trimmed value answer) (schemas : List Schema) :
    Trimmed value (answer.withTags schemas) := by
  cases trimmed with
  | array lengths each => exact .array lengths each
  | object distinct known kept each => exact .object distinct known kept each
  | undefined => exact .undefined
  | null => exact .null
  | bool value => exact .bool value
  | number value => exact .number value
  | string value => exact .string value

end Trimmed

end Value

namespace Validator

/-- An object whose bodies trim is trimmed. -/
theorem FieldsStep.trimmed {judges : Schema → Value → Verdict → Prop}
    {properties : List (Property Schema)} {additional : Additional Schema}
    {fields answers : Fields Value} {content place : Identity} {tags tags' : Tags}
    (names : (Property.names properties).Nodup)
    (keyed : (Value.object content fields tags).Throughout Value.Keyed)
    (each : ∀ body ∈ properties.map Property.body ++ additional.bodies, ∀ item answer,
      item.Throughout Value.Keyed → judges body item (.accepted answer) → item.Trimmed answer)
    (step : FieldsStep judges false false properties additional fields answers) :
    (Value.object content fields tags).Trimmed (.object place answers tags') := by
  have distinct : Fields.Distinct fields := keyed.here
  have distinct' : answers.Distinct := step.distinct names distinct
  refine .object distinct' (fun key member => ?_) (fun key => step.mem_keys_of_lookup)
    (fun key member => ?_)
  all_goals
    obtain ⟨answer, inside⟩ := Fields.exists_mem_of_mem_keys member
    obtain ⟨item, source, _, how⟩ := step.under_key inside
  · exact Fields.mem_keys source
  · rw [Fields.lookup_of_mem distinct source, Fields.lookup_of_mem distinct' inside]
    rcases how with ⟨_, rfl⟩ | ⟨body, listed, judged⟩
    · exact .refl (keyed.field source)
    · exact each body listed item answer (keyed.field source) judged

end Validator

namespace Context

variable {context : Context} {schema : Schema} {value answer : Value}

/-- Under strict options an answer has the data of its value, of which it may lack fields without
a value only. -/
theorem answer_trimmed (strict : context.settings = .strict) (sound : context.Sound schema)
    (keyed : value.Throughout Value.Keyed)
    (judged : context.Judges schema value (.accepted answer)) : value.Trimmed answer := by
  have faithful : context.settings.Faithful := strict ▸ Options.strict_faithful
  obtain ⟨verbatim, inward, lone, keep⟩ := faithful
  revert keyed
  refine accepted_induction (motive := fun _ value answer =>
    value.Throughout Value.Keyed → value.Trimmed answer) ?_ sound sound judged
  intro schema value answer sound step keyed
  cases step with
  | leaf leaf judged =>
    rcases leaf_answer leaf sound.here.knownFormats judged with rfl | ⟨_, loose⟩
    · exact .refl keyed
    · exact absurd verbatim loose
  | @items node items least most list answers place shape found count judged =>
    obtain ⟨content, tags, rfl⟩ := Validator.itemsOf?_eq_some lone found
    cases found
    have each : List.Forall₂ Value.Trimmed list answers := by
      refine forall₂_imp_of_mem judged ?_
      rintro item member answer ⟨_, _, trimmed⟩
      exact trimmed answer rfl (keyed.item member)
    exact .array each.length_eq (List.forall₂_iff_get.mp each).2
  | @fields node properties additional content fields answers tags place shape object judged =>
    subst object
    have names : (context.shape schema).DistinctNames :=
      (sound.reached (reaches_shape context schema)).here.distinctNames
    rw [shape] at names
    rw [inward, Bool.false_and, keep] at judged
    refine judged.trimmed names keyed ?_
    rintro body _ item answer keyed ⟨_, _, trimmed⟩
    exact trimmed answer rfl keyed
  | union shape judged =>
    obtain ⟨choice, _, _, _, trimmed⟩ := judged.accepted
    exact trimmed answer rfl keyed
  | intersection shape judged =>
    obtain ⟨last, tags, trimmed, rfl⟩ := judged.accepted (Value.Trimmed.refl keyed)
      (fun component _ item answer trimmed judged =>
        trimmed.trans (judged.2.2 answer rfl trimmed.keyed))
    exact trimmed.withTags tags
  | @named ref inner verdict shape other judged tagged =>
    obtain ⟨first, rfl, rfl⟩ := accepted_of_map tagged
    exact (judged.2.2 first rfl keyed).withTags [schema]

/-- Under strict options, whatever the schema and the tags, an answer has the data of its
value, of which it may lack fields without a value only. Where there are none it is equal. -/
theorem strict_answer_trimmed (strict : context.settings = .strict) (sound : context.Sound schema)
    (keyed : value.Throughout Value.Keyed)
    (judged : context.Judges schema value (.accepted answer)) :
    value.Trimmed answer ∧ (value.Throughout Value.Filled → answer.eq value = true) := by
  have restates := answer_restates strict sound keyed judged
  exact ⟨answer_trimmed strict sound keyed judged, fun filled =>
    restates.agrees.symm.eq ⟨restates.keyed, restates.filled filled⟩ ⟨keyed, filled⟩⟩

end Context

namespace Shapes

/-- A group with a note that has no value, of one circle with a colour that has none. -/
def untidy : Value :=
  .object (.run 0) [("note", .undefined), ("members", .array (.run 1) [
    .object (.run 2) [("radius", .number radius), ("colour", .undefined),
      ("kind", .string "circle")] []] []), ("kind", .string "group")] []

/-- The group is accepted, without the note and the colour. -/
theorem untidy_trimmed :
    let context : Context := ⟨definitions, fun _ => none, .strict⟩
    ∃ answer, context.Judges shape untidy (.accepted answer) ∧
      untidy.Trimmed answer ∧ (untidy.Throughout Value.Filled → answer.eq untidy = true) := by
  intro context
  have keyed : untidy.Throughout Value.Keyed := by
    simp [untidy, Value.Keyed, Fields.Distinct, Fields.keys]
  obtain ⟨answer, ended⟩ : ∃ answer, context.attempt 20 shape (.run 3) untidy =
      .ok (.accepted answer) := ⟨_, rfl⟩
  exact ⟨answer, ⟨20, .run 3, ended⟩,
    Context.strict_answer_trimmed rfl (sound _ _ (.head _)) keyed ⟨20, .run 3, ended⟩⟩

end Shapes

end Conform
