import Conform.Proofs.Wire.Documents

/-!
# Wire names

Decoding reads a property under its wire name and encoding writes it under the wire name
again. When the wire names of an object are distinct and no key is the inner name of a
renamed property, the keys of the answer are written as the keys that were read: each one
once, and all of them.
-/

namespace Conform

/-- The name under which an object with these properties has a key written. -/
def Property.rename (properties : List (Property Schema)) (key : String) : String :=
  match Property.find? properties key with
  | some property => property.wireName.getD key
  | none => key

/-- A declared property is found under its name. -/
theorem Property.find?_of_mem {properties : List (Property Schema)}
    (names : (Property.names properties).Nodup) {property : Property Schema}
    (member : property ∈ properties) :
    Property.find? properties property.name = some property := by
  unfold Property.find?
  induction properties with
  | nil => cases member
  | cons first rest ih =>
    obtain ⟨fresh, distinct⟩ := List.nodup_cons.mp names
    rcases List.mem_cons.mp member with rfl | later
    · exact List.find?_cons_of_pos (by simp)
    · rw [List.find?_cons_of_neg, ih distinct later]
      intro same
      exact fresh (of_decide_eq_true same ▸ List.mem_map_of_mem later)

namespace Value

variable {definitions : Definitions} {properties : List (Property Schema)} {tags : Tags}

/-- Tags that all stand for the same properties write keys as these say. -/
theorem wireKey_of_replicate {count : Nat}
    (same : tags.filterMap (Schema.properties? definitions) =
      List.replicate (count + 1) properties) (key : String) :
    wireKey definitions tags key = Property.rename properties key := by
  unfold wireKey Property.rename
  rw [same]
  cases found : Property.find? properties key <;> simp [found]

/-- Tags are looked at for the names of keys only. -/
theorem toWireFields_congr {tags' : Tags}
    (same : ∀ key, wireKey definitions tags key = wireKey definitions tags' key)
    (fields : Fields Value) :
    toWireFields definitions tags fields = toWireFields definitions tags' fields := by
  induction fields with
  | nil => rfl
  | cons entry rest ih => rw [toWireFields, toWireFields, ih, same]

end Value

namespace Validator

variable {judges : Schema → Value → Verdict → Prop} {wire : Bool}
  {properties : List (Property Schema)} {additional : Additional Schema}
  {fields answers : Fields Value}

/-- On the wire a property is read under its wire name. -/
theorem readKey_true (property : Property Schema) :
    readKey true property = property.wireName.getD property.name := by
  unfold readKey
  cases property.wireName <;> rfl

/-- A declared property is written as it is read. -/
theorem rename_name (names : (Property.names properties).Nodup) {property : Property Schema}
    (member : property ∈ properties) :
    Property.rename properties property.name = readKey true property := by
  rw [Property.rename, Property.find?_of_mem names member, readKey_true]

/-- A key that no property is named by is written as it is. -/
theorem rename_of_undeclared {key : String} (undeclared : key ∉ Property.names properties) :
    Property.rename properties key = key := by
  have absent : Property.find? properties key = none := by
    refine List.find?_eq_none.mpr (fun property member same => undeclared ?_)
    exact of_decide_eq_true same ▸ List.mem_map_of_mem member
  rw [Property.rename, absent]

/-- A key that is not taken names no property. -/
theorem undeclared_of_untaken {key : String} (untaken : isTaken wire properties key = false) :
    key ∉ Property.names properties := by
  intro declared
  obtain ⟨property, member, rfl⟩ := List.mem_map.mp declared
  have clear := List.any_eq_false.mp untaken property member
  simp at clear

/-- A key that no property takes is written as it is. -/
theorem rename_of_untaken {key : String} (untaken : isTaken wire properties key = false) :
    Property.rename properties key = key :=
  rename_of_undeclared (undeclared_of_untaken untaken)

/-- No key but the names of properties is the wire key of a property whose name is among the
keys. -/
def Uncontested (properties : List (Property Schema)) (keys : List String) : Prop :=
  ∀ key ∈ keys, key ∉ Property.names properties → ∀ property ∈ properties,
    property.name ∈ keys → readKey true property ≠ key

/-- Keys that are uncontested stay so when there are fewer of them. -/
theorem Uncontested.subset {keys fewer : List String} (uncontested : Uncontested properties keys)
    (subset : fewer ⊆ keys) : Uncontested properties fewer :=
  fun key member undeclared property listed named =>
    uncontested key (subset member) undeclared property listed (subset named)

section

variable (names : (Property.names properties).Nodup)

include names

/-- Where an answered field was read: under the key that it is written under. -/
theorem FieldsStep.read {key : String} {answer : Value}
    (step : FieldsStep judges true false properties additional fields answers)
    (member : (key, answer) ∈ answers) :
    ∃ item, (Property.rename properties key, item) ∈ fields ∧
      ((additional = .keep ∧ answer = item) ∨
        ∃ body ∈ properties.map Property.body ++ additional.bodies,
          judges body item (.accepted answer)) := by
  rcases step.origin member with ⟨property, listed, rfl, there, judged⟩ | ⟨value, inside, how⟩
  · refine ⟨_, ?_, .inr ⟨property.body, additional.declared_mem listed, judged⟩⟩
    rw [rename_name names listed]
    exact Fields.mem_of_lookup there
  · obtain ⟨read, untaken, _⟩ := mem_otherFields.mp inside
    refine ⟨value, ?_, ?_⟩
    · rw [rename_of_untaken untaken]
      exact read
    · rcases how with keep | ⟨body, typed, judged⟩
      · exact .inl keep
      · exact .inr ⟨body, Additional.each_mem properties typed, judged⟩

/-- Where wire keys are distinct, keys are written as distinct keys exactly when they are
uncontested. -/
theorem uncontested_iff_rename_injective (wireKeys : (properties.map (readKey true)).Nodup)
    (keys : List String) :
    Uncontested properties keys ↔ ∀ key ∈ keys, ∀ key' ∈ keys,
      Property.rename properties key = Property.rename properties key' → key = key' := by
  have declared : ∀ key ∈ Property.names properties,
      ∃ property ∈ properties, property.name = key := fun key => List.mem_map.mp
  constructor
  · intro uncontested key member key' member' same
    by_cases known : key ∈ Property.names properties
    · obtain ⟨property, listed, rfl⟩ := declared key known
      rw [rename_name names listed] at same
      by_cases known' : key' ∈ Property.names properties
      · obtain ⟨property', listed', rfl⟩ := declared key' known'
        rw [rename_name names listed'] at same
        rw [List.inj_on_of_nodup_map wireKeys listed listed' same]
      · rw [rename_of_undeclared known'] at same
        exact absurd same (uncontested key' member' known' property listed member)
    · rw [rename_of_undeclared known] at same
      by_cases known' : key' ∈ Property.names properties
      · obtain ⟨property', listed', rfl⟩ := declared key' known'
        rw [rename_name names listed'] at same
        exact absurd same.symm (uncontested key member known property' listed' member')
      · rw [rename_of_undeclared known'] at same
        exact same
  · intro injective key member undeclared property listed named reads
    have same : Property.rename properties property.name = Property.rename properties key := by
      rw [rename_name names listed, rename_of_undeclared undeclared, reads]
    exact undeclared (injective _ named key member same ▸ List.mem_map_of_mem listed)

omit names in
/-- What is read from the wire is uncontested: a key that names no property is not taken. -/
theorem FieldsStep.uncontested {drop : Bool}
    (step : FieldsStep judges true drop properties additional fields answers) :
    Uncontested properties answers.keys := by
  rintro key member undeclared property listed _ rfl
  obtain ⟨⟨_, answer⟩, inside, same⟩ := List.mem_map.mp member
  obtain rfl := same
  rcases step.origin inside with ⟨other, among, named, _⟩ | ⟨value, other, _⟩
  · exact undeclared (named ▸ List.mem_map_of_mem among)
  · have clear := List.any_eq_false.mp (mem_otherFields.mp other).2.1 property listed
    simp at clear

/-- Distinct keys of answers are written as distinct keys. -/
theorem FieldsStep.rename_injective
    (wireKeys : (properties.map (readKey true)).Nodup)
    (step : FieldsStep judges true false properties additional fields answers) :
    ∀ key ∈ answers.keys, ∀ key' ∈ answers.keys,
      Property.rename properties key = Property.rename properties key' → key = key' :=
  (uncontested_iff_rename_injective names wireKeys answers.keys).mp step.uncontested

/-- Every key that was read is written again, when none of them is the inner name of a
renamed property. -/
theorem FieldsStep.rename_surjective
    (step : FieldsStep judges true false properties additional fields answers)
    (distinct : fields.Distinct) (there : ∀ entry ∈ fields, entry.2.isUndefined = false)
    (free : ∀ property ∈ properties, readKey true property ≠ property.name →
      property.name ∉ fields.keys) :
    ∀ name ∈ fields.keys, ∃ key ∈ answers.keys, Property.rename properties key = name := by
  intro name member
  obtain ⟨⟨name, value⟩, inside, rfl⟩ := List.mem_map.mp member
  cases taken : isTaken true properties name with
  | false =>
    have other : (name, value) ∈ otherFields true properties fields :=
      mem_otherFields.mpr ⟨inside, taken, there _ inside⟩
    exact ⟨name, step.key_mem_keys other, rename_of_untaken taken⟩
  | true =>
    obtain ⟨property, listed, which⟩ := List.any_eq_true.mp taken
    have read : readKey true property = name := by
      by_contra different
      simp only [Bool.or_eq_true, decide_eq_true_eq] at which
      obtain rfl := which.resolve_left different
      exact free property listed different member
    refine ⟨property.name, step.name_mem_keys listed ?_, by rw [rename_name names listed, read]⟩
    rw [read, Fields.lookup_of_mem distinct inside]
    exact there _ inside

/-- The keys of the answer are written as those that were read. -/
theorem FieldsStep.keys_perm (wireKeys : (properties.map (readKey true)).Nodup)
    (step : FieldsStep judges true false properties additional fields answers)
    (distinct : fields.Distinct) (there : ∀ entry ∈ fields, entry.2.isUndefined = false)
    (free : ∀ property ∈ properties, readKey true property ≠ property.name →
      property.name ∉ fields.keys) :
    (answers.keys.map (Property.rename properties)).Perm fields.keys := by
  have written : (answers.keys.map (Property.rename properties)).Nodup :=
    (step.distinct names distinct).map_on (step.rename_injective names wireKeys)
  refine (List.perm_ext_iff_of_nodup written distinct).mpr (fun name => ?_)
  rw [List.mem_map]
  constructor
  · rintro ⟨key, member, rfl⟩
    obtain ⟨⟨_, answer⟩, inside, rfl⟩ := List.mem_map.mp member
    obtain ⟨item, read, _⟩ := step.read names inside
    exact Fields.mem_keys read
  · exact step.rename_surjective names distinct there free name

end

end Validator

end Conform
