import Conform.Proofs.Revalidation.Earned

/-!
# What grants the parts

A name whose definition is a container judges in the place of its definition, and the definition
itself accepts nothing. So a container is vouched for by itself or by a name. What vouches for a
value has granted the parts of the value to what judges them: to the facets of a schema the same
value, to the contents of a container what the value holds.
-/

namespace Conform.Context

variable {context : Context} {schema : Schema} {node : Nat} {value : Value}

/-- The schema, or a name that judges in its way, accepted a value with the same data. -/
def Vouched (context : Context) (schema : Schema) (value : Value) : Prop :=
  ∃ judge, context.Sound judge ∧ (judge = schema ∨ context.shape judge = schema) ∧
    context.Granted judge value

/-- A sound schema that has accepted a value vouches for it. -/
theorem Granted.vouched (granted : context.Granted schema value) (sound : context.Sound schema) :
    context.Vouched schema value :=
  ⟨schema, sound, .inl rfl, granted⟩

/-- Off containers a schema vouches for itself. -/
theorem Vouched.granted (vouched : context.Vouched schema value)
    (plain : schema.isContainer = false) : context.Granted schema value := by
  obtain ⟨judge, _, rfl | shaped, granted⟩ := vouched
  · exact granted
  · have same : context.shape judge = judge := by
      cases judge with
      | named ref =>
        rw [shape] at shaped ⊢
        split at shaped
        · next container =>
          rw [shaped, plain] at container
          cases container
        · next other => rw [if_neg other]
      | _ => rfl
    rw [← shaped, same]
    exact granted

/-- What a name granted, its definition vouches for. -/
theorem Granted.definition {ref : NamedRef} (granted : context.Granted (.named ref) value)
    (sound : context.Sound (.named ref)) :
    context.Vouched (context.definitions ref) value := by
  cases container : (context.definitions ref).isContainer with
  | true => exact ⟨.named ref, sound, .inr (if_pos container), granted⟩
  | false =>
    obtain ⟨item, answer, keyed, agree, judged⟩ := granted
    obtain ⟨inner, judged, tagged⟩ := (judged_step sound judged).by_definition container
    obtain ⟨first, rfl, _⟩ := accepted_of_map tagged
    have inside := sound.facet Schema.definition_mem_facets
    exact Granted.vouched ⟨item, first, keyed, agree, judged⟩ inside

/-- What vouches for a container accepted one with the same data, by the shape of the schema. -/
theorem Vouched.by_shape (vouched : context.Vouched schema value)
    (container : schema.isContainer = true) :
    ∃ judge item answer, context.Sound judge ∧ context.shape judge = schema ∧
      item.Throughout Value.Keyed ∧ item.Agrees value ∧
      context.Judges judge item (.accepted answer) := by
  obtain ⟨judge, sound, shape, item, answer, keyed, agree, judged⟩ := vouched
  refine ⟨judge, item, answer, sound, ?_, keyed, agree, judged⟩
  rcases shape with rfl | shaped
  · cases judge <;> first | rfl | cases container
  · exact shaped

section

variable {properties : List (Property Schema)} {additional : Additional Schema} {body : Schema}
  {content : Identity} {fields : Fields Value} {items : List Value} {tags : Tags}

/-- An object that was accepted has fields with the same data that were accepted. -/
theorem Vouched.object (strict : context.settings = .strict)
    (vouched : context.Vouched (.object node properties additional) value) :
    ∃ content fields answers tags, (Value.object content fields tags).Throughout Value.Keyed ∧
      (Value.object content fields tags).Agrees value ∧
      Validator.FieldsStep context.Judges false false properties additional fields answers := by
  have faithful : context.settings.Faithful := strict ▸ Options.strict_faithful
  obtain ⟨_, inward, _, keep⟩ := faithful
  obtain ⟨judge, item, answer, sound, shaped, keyed, agree, judged⟩ := vouched.by_shape rfl
  obtain ⟨_, content, fields, answers, tags, rfl, _, step⟩ :=
    (judged_step sound judged).object shaped
  rw [inward, keep, Bool.false_and] at step
  exact ⟨content, fields, answers, tags, keyed, agree, step⟩

/-- A declared property with a value was granted by its body. -/
theorem Vouched.property (strict : context.settings = .strict)
    (vouched : context.Vouched (.object node properties additional) (.object content fields tags))
    {property : Property Schema} (member : property ∈ properties)
    (there : (Fields.lookup property.name fields).isUndefined = false) :
    context.Granted property.body (Fields.lookup property.name fields) := by
  obtain ⟨_, fields', answers, _, keyed, agree, step⟩ := vouched.object strict
  obtain ⟨found, extras, _, declared, _⟩ := step
  have same : (Fields.lookup property.name fields').Agrees (Fields.lookup property.name fields) :=
    agree.field property.name
  have there' := same.isUndefined_eq.trans there
  have step := declared property member
  generalize found property.name = answer at step
  cases step with
  | absent missing optional =>
    rw [Validator.readKey_false] at missing
    cases missing.symm.trans there'
  | present there judged =>
    rw [Validator.readKey_false] at judged
    exact ⟨_, _, keyed.field (Fields.mem_of_lookup there'), same, judged⟩

/-- A further field was granted by what judges the properties that are not declared. -/
theorem Vouched.field (strict : context.settings = .strict)
    (vouched : context.Vouched (.object node properties (.each body)) (.object content fields tags))
    {key : String} (undeclared : key ∉ Property.names properties)
    (there : (Fields.lookup key fields).isUndefined = false) :
    context.Granted body (Fields.lookup key fields) := by
  obtain ⟨_, fields', answers, _, keyed, agree, step⟩ := vouched.object strict
  obtain ⟨found, extras, _, _, others⟩ := step
  have same : (Fields.lookup key fields').Agrees (Fields.lookup key fields) := agree.field key
  have there' := same.isUndefined_eq.trans there
  have untaken : Validator.isTaken false properties key = false := by
    rw [← Bool.not_eq_true, Validator.isTaken_false]
    exact undeclared
  have listed := Fields.mem_of_lookup there'
  obtain ⟨_, _, _, judged⟩ :=
    forall₂_mem others (Validator.mem_otherFields.mpr ⟨listed, untaken, there'⟩)
  exact ⟨_, _, keyed.field listed, same, judged⟩

/-- An item was granted by what judges the items. -/
theorem Vouched.item (strict : context.settings = .strict) {least most : Option Nat}
    (vouched : context.Vouched (.array node body least most) (.array content items tags))
    {index : Nat} {item : Value} (there : items[index]? = some item) :
    context.Granted body item := by
  have faithful : context.settings.Faithful := strict ▸ Options.strict_faithful
  obtain ⟨judge, whole, answer, sound, shaped, keyed, agree, judged⟩ := vouched.by_shape rfl
  obtain ⟨_, list, answers, found, _, _, inner⟩ := (judged_step sound judged).array shaped
  obtain ⟨_, _, rfl⟩ := Validator.itemsOf?_eq_some faithful.lone found
  cases agree with
  | array lengths each =>
    have pairs := List.forall₂_iff_get.mpr ⟨lengths, each⟩
    obtain ⟨item', at', same⟩ := forall₂_getElem?_right pairs there
    obtain ⟨answer, _, accepted⟩ := forall₂_getElem? inner at'
    exact ⟨item', answer, keyed.item (List.mem_of_getElem? at'), same, accepted⟩

end

/-- What a union granted, one of its options granted. -/
theorem Granted.option {options : List Schema}
    (granted : context.Granted (.union node options) value)
    (sound : context.Sound (.union node options)) :
    ∃ option ∈ options, context.Granted option value := by
  obtain ⟨item, answer, keyed, agree, judged⟩ := granted
  obtain ⟨option, member, accepted⟩ := (judged_step sound judged).by_options.accepted
  exact ⟨option, member, item, answer, keyed, agree, accepted⟩

/-- What an intersection granted, each of its components granted. -/
theorem Granted.component (strict : context.settings = .strict) {components : List Schema}
    (granted : context.Granted (.intersection node components) value)
    (sound : context.Sound (.intersection node components)) {component : Schema}
    (member : component ∈ components) : context.Granted component value := by
  obtain ⟨item, answer, keyed, agree, judged⟩ := granted
  -- what a component sees restates the item, so it agrees with the value as well
  have kept : ∀ other ∈ components, ∀ seen result,
      seen.Throughout Value.Keyed ∧ seen.Agrees value →
      context.Judges other seen (.accepted result) →
      result.Throughout Value.Keyed ∧ result.Agrees value := by
    intro other inside seen result before judged
    have next := answer_restates strict (sound.facet inside) before.1 judged
    exact ⟨next.keyed, next.agrees.symm.trans before.2⟩
  obtain ⟨seen, result, ⟨keyed, agree⟩, accepted⟩ :=
    (judged_step sound judged).by_components.each ⟨keyed, agree⟩ kept component member
  exact ⟨seen, result, keyed, agree, accepted⟩

end Conform.Context
