import Conform.Proofs.Attempt.Answers

/-!
# Values that agree

Checking an object leaves out fields without a value, puts the declared ones first and adds
tags. Values agree when they differ in such ways only, at any depth. A forbidden key counts
even without a value, so agreeing objects have the same forbidden keys.
-/

namespace Conform

namespace Value

/-- The same data up to tags, the order of fields and fields without a value. -/
inductive Agrees : Value → Value → Prop
  | undefined : Agrees .undefined .undefined
  | null : Agrees .null .null
  | bool (value : Bool) : Agrees (.bool value) (.bool value)
  | number (value : Number) : Agrees (.number value) (.number value)
  | string (value : String) : Agrees (.string value) (.string value)
  | array {content content' : Identity} {items items' : List Value} {tags tags' : Tags}
      (lengths : items.length = items'.length)
      (each : ∀ (index : Nat) (inside : index < items.length) (inside' : index < items'.length),
        Agrees items[index] items'[index]) :
      Agrees (.array content items tags) (.array content' items' tags')
  | object {content content' : Identity} {fields fields' : Fields Value} {tags tags' : Tags}
      (forbidden : ∀ key ∈ Validator.forbiddenKeys, key ∈ fields.keys ↔ key ∈ fields'.keys)
      (each : ∀ key : String, Agrees (fields.lookup key) (fields'.lookup key)) :
      Agrees (.object content fields tags) (.object content' fields' tags')

namespace Agrees

variable {value value' value'' : Value}

/-- Arrays agree item by item. -/
theorem items {content content' : Identity} {items items' : List Value} {tags tags' : Tags}
    (agree : List.Forall₂ Agrees items items') :
    Agrees (.array content items tags) (.array content' items' tags') :=
  .array agree.length_eq (List.forall₂_iff_get.mp agree).2

/-- Values that agree are both missing or both there. -/
theorem isUndefined_eq (agree : Agrees value value') : value.isUndefined = value'.isUndefined := by
  cases agree <;> rfl

/-- Values that agree stand for the same literal. -/
theorem literal?_eq (agree : Agrees value value') : value.literal? = value'.literal? := by
  cases agree <;> rfl

/-- Values that agree have fields that agree. -/
theorem field (agree : Agrees value value') (key : String) :
    (value.field key).Agrees (value'.field key) := by
  cases agree with
  | object forbidden each => exact each key
  | _ => exact .undefined

/-- Scalars agree only when they are equal. -/
theorem eq_of_scalar (agree : Agrees value value') (scalar : value.tags? = none) :
    value' = value := by
  cases agree <;> first | rfl | cases scalar

/-- Tags and identities are not looked at. -/
theorem refl_of_fields {content content' : Identity} {fields : Fields Value} {tags tags' : Tags}
    (each : ∀ entry ∈ fields, Agrees entry.2 entry.2) :
    Agrees (.object content fields tags) (.object content' fields tags') := by
  refine .object (fun _ _ => Iff.rfl) (fun key => ?_)
  cases there : (fields.lookup key).isUndefined with
  | true =>
    rw [eq_undefined there]
    exact .undefined
  | false => exact each _ (Fields.mem_of_lookup there)

/-- A value agrees with itself. -/
theorem refl (value : Value) : Agrees value value := by
  induction value using contents_induction with
  | step value ih =>
  cases value with
  | undefined => exact .undefined
  | null => exact .null
  | bool value => exact .bool value
  | number value => exact .number value
  | string value => exact .string value
  | array content items tags =>
    exact .array rfl (fun index inside _ => ih items[index] (List.getElem_mem inside))
  | object content fields tags =>
    exact refl_of_fields (fun entry member => ih entry.2 (List.mem_map_of_mem member))

/-- Values agree in both directions. -/
theorem symm (agree : Agrees value value') : Agrees value' value := by
  induction agree with
  | undefined => exact .undefined
  | null => exact .null
  | bool value => exact .bool value
  | number value => exact .number value
  | string value => exact .string value
  | array lengths each ih =>
    exact .array lengths.symm (fun index inside inside' => ih index inside' inside)
  | object forbidden each ih =>
    exact .object (fun key member => (forbidden key member).symm) ih

/-- Values that agree with a third agree. -/
theorem trans (first : Agrees value value') (second : Agrees value' value'') :
    Agrees value value'' := by
  induction first generalizing value'' with
  | undefined => exact second
  | null => exact second
  | bool value => exact second
  | number value => exact second
  | string value => exact second
  | array lengths each ih =>
    cases second with
    | array lengths' each' =>
      refine .array (lengths.trans lengths') (fun index inside inside' => ?_)
      exact ih index inside (lengths ▸ inside) (each' index (lengths ▸ inside) inside')
  | object forbidden each ih =>
    cases second with
    | object forbidden' each' =>
      refine .object (fun key member => ?_) (fun key => ih key (each' key))
      exact (forbidden key member).trans (forbidden' key member)

/-- A value agrees with itself under further tags. -/
theorem withTags (value : Value) (schemas : List Schema) :
    Agrees value (value.withTags schemas) := by
  cases value with
  | array content items tags => exact .array rfl (fun _ _ _ => .refl _)
  | object content fields tags => exact refl_of_fields (fun entry _ => .refl _)
  | _ => exact .refl _

end Agrees

/-! ## Agreement without missing values is equality -/

/-- No field of an object lacks a value. -/
def Filled : Value → Prop
  | .object _ fields _ => ∀ entry ∈ fields, entry.2.isUndefined = false
  | _ => True

/-- A value with distinct keys, and a value under each. -/
structure Full (value : Value) : Prop where
  keyed : value.Throughout Keyed
  filled : value.Throughout Filled

/-- The items of a full array are full. -/
theorem Full.item {content : Identity} {items : List Value} {tags : Tags} {value : Value}
    (full : (Value.array content items tags).Full) (member : value ∈ items) : value.Full :=
  ⟨full.keyed.item member, full.filled.item member⟩

/-- The fields of a full object are full. -/
theorem Full.field {content : Identity} {fields : Fields Value} {tags : Tags} {key : String}
    {value : Value} (full : (Value.object content fields tags).Full)
    (member : (key, value) ∈ fields) : value.Full :=
  ⟨full.keyed.field member, full.filled.field member⟩

/-- Items are equal when each is equal to its counterpart. -/
theorem eqItems_of_forall₂ {items items' : List Value}
    (same : List.Forall₂ (fun item item' => item.eq item' = true) items items') :
    eqItems items items' = true := by
  induction same with
  | nil => simp only [eqItems]
  | cons head _ ih => rw [eqItems, head, ih, Bool.and_self]

/-- Fields are covered when each has an equal one under its key. -/
theorem eqFields_of_get? {fields others : Fields Value}
    (each : ∀ entry ∈ fields, ∃ other, others.get? entry.1 = some other ∧
      entry.2.eq other = true) : eqFields fields others = true := by
  induction fields with
  | nil => simp only [eqFields]
  | cons entry rest ih =>
    obtain ⟨key, value⟩ := entry
    obtain ⟨⟨other, found, same⟩, further⟩ := List.forall_mem_cons.mp each
    simp only at found same
    rw [eqFields, found, ih further]
    simpa using same

/-- A key of filled fields of distinct keys has a value. -/
theorem mem_keys_iff {fields : Fields Value} (distinct : fields.Distinct)
    (filled : ∀ entry ∈ fields, entry.2.isUndefined = false) (key : String) :
    key ∈ fields.keys ↔ (fields.lookup key).isUndefined = false := by
  constructor
  · intro member
    obtain ⟨value, inside⟩ := Fields.exists_mem_of_mem_keys member
    rw [Fields.lookup_of_mem distinct inside]
    exact filled _ inside
  · exact fun there => Fields.mem_keys (Fields.mem_of_lookup there)

/-- A scalar is equal to itself. -/
theorem eq_self_of_scalar {value : Value} (plain : value.tags? = none) : value.eq value = true := by
  cases value with
  | undefined => simp [Value.eq]
  | null => simp [Value.eq]
  | bool value => simp [Value.eq]
  | number value => simp [Value.eq, Number.numericEq, Binary64.numericEq]
  | string value => simp [Value.eq]
  | array => cases plain
  | object => cases plain

/-- Objects of the same distinct keys are equal when the fields under each key are. -/
theorem eq_of_lookup {content content' : Identity} {fields fields' : Fields Value}
    {tags tags' : Tags} (distinct : fields.Distinct) (distinct' : fields'.Distinct)
    (keys : ∀ key, key ∈ fields.keys ↔ key ∈ fields'.keys)
    (each : ∀ key ∈ fields.keys, (fields.lookup key).eq (fields'.lookup key) = true) :
    (Value.object content fields tags).eq (.object content' fields' tags') = true := by
  have order : fields.keys.Perm fields'.keys :=
    (List.perm_ext_iff_of_nodup distinct distinct').mpr keys
  have lengths : fields.length = fields'.length := by
    simpa [Fields.keys] using order.length_eq
  rw [Value.eq, lengths, beq_self_eq_true, Bool.true_and]
  refine eqFields_of_get? (fun entry member => ?_)
  have listed := Fields.mem_keys member
  obtain ⟨other, member'⟩ := Fields.exists_mem_of_mem_keys ((keys _).mp listed)
  have equal := each entry.1 listed
  rw [Fields.lookup_of_mem distinct member, Fields.lookup_of_mem distinct' member'] at equal
  exact ⟨other, Fields.get?_of_mem distinct' member', equal⟩

/-- Values that agree and lack nothing are equal. -/
theorem Agrees.eq {value value' : Value} (agree : Agrees value value') (full : value.Full)
    (full' : value'.Full) : value.eq value' = true := by
  induction agree with
  | undefined => exact eq_self_of_scalar rfl
  | null => exact eq_self_of_scalar rfl
  | bool value => exact eq_self_of_scalar rfl
  | number value => exact eq_self_of_scalar rfl
  | string value => exact eq_self_of_scalar rfl
  | array lengths each ih =>
    rw [Value.eq]
    refine eqItems_of_forall₂ (List.forall₂_iff_get.mpr ⟨lengths, fun index inside inside' => ?_⟩)
    exact ih index inside inside' (full.item (List.getElem_mem inside))
      (full'.item (List.getElem_mem inside'))
  | @object content content' fields fields' tags tags' forbidden each ih =>
    have keys := mem_keys_iff full.keyed.here full.filled.here
    have keys' := mem_keys_iff full'.keyed.here full'.filled.here
    refine eq_of_lookup full.keyed.here full'.keyed.here (fun key => ?_) (fun key listed => ?_)
    · rw [keys, keys', (each key).isUndefined_eq]
    · have there := (keys key).mp listed
      have there' := (each key).isUndefined_eq.symm.trans there
      exact ih key (full.field (Fields.mem_of_lookup there))
        (full'.field (Fields.mem_of_lookup there'))

end Value

end Conform
