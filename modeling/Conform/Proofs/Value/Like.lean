import Conform.Proofs.Value.Contents

/-!
# Values that differ in identities

Where a content was made has no say in what a value is: not in its kind, its tags, the
literal it denotes, or the data it equals. Values are alike when they differ in identities
only; which identities may stand for each other is a parameter. With equal identities
alike values are equal, and with any identities they have the same data, in the same order
of fields, and the same tags.
-/

namespace Conform

namespace Fields

variable {α β : Type} {fields : Fields α} {fields' : Fields β}

/-- Fields of equal keys are related entry by entry when their values are. -/
theorem forall₂_of_keys_eq (related : α → β → Prop) (keys : fields.keys = fields'.keys)
    (each : ∀ (index : Nat) (inside : index < fields.length) (inside' : index < fields'.length),
      related fields[index].2 fields'[index].2) :
    List.Forall₂ (fun entry entry' => entry.1 = entry'.1 ∧ related entry.2 entry'.2)
      fields fields' := by
  have lengths := congrArg List.length keys
  simp only [Fields.keys, List.length_map] at lengths
  refine List.forall₂_iff_get.mpr ⟨lengths, fun index inside inside' => ?_⟩
  have names := congrArg (fun names => names[index]?) keys
  simp only [Fields.keys, List.getElem?_map, List.getElem?_eq_getElem inside,
    List.getElem?_eq_getElem inside', Option.map_some, Option.some.injEq] at names
  exact ⟨names, each index inside inside'⟩

/-- Fields related entry by entry have equal keys. -/
theorem keys_eq_of_forall₂ {together : String × α → String × β → Prop}
    (alike : List.Forall₂ together fields fields')
    (names : ∀ entry entry', together entry entry' → entry.1 = entry'.1) :
    fields.keys = fields'.keys := by
  induction alike with
  | nil => rfl
  | cons head _ ih => exact List.cons_eq_cons.mpr ⟨names _ _ head, ih⟩

end Fields

namespace Value

/-- Two values differ in the identities of contents only, and there as allowed. -/
inductive Like (allowed : Identity → Identity → Prop) : Value → Value → Prop
  | undefined : Like allowed .undefined .undefined
  | null : Like allowed .null .null
  | bool (value : Bool) : Like allowed (.bool value) (.bool value)
  | number (value : Number) : Like allowed (.number value) (.number value)
  | string (value : String) : Like allowed (.string value) (.string value)
  | array {content content' : Identity} {items items' : List Value} (tags : Tags)
      (identities : allowed content content') (lengths : items.length = items'.length)
      (each : ∀ (index : Nat) (inside : index < items.length) (inside' : index < items'.length),
        Like allowed items[index] items'[index]) :
      Like allowed (.array content items tags) (.array content' items' tags)
  | object {content content' : Identity} {fields fields' : Fields Value} (tags : Tags)
      (identities : allowed content content') (keys : fields.keys = fields'.keys)
      (each : ∀ (index : Nat) (inside : index < fields.length) (inside' : index < fields'.length),
        Like allowed fields[index].2 fields'[index].2) :
      Like allowed (.object content fields tags) (.object content' fields' tags)

/-- The same data, the same order of fields and the same tags. -/
abbrev Identical : Value → Value → Prop :=
  Like (fun _ _ => True)

end Value

/-- Fields of the same keys with alike values. -/
abbrev Fields.Like (allowed : Identity → Identity → Prop) : Fields Value → Fields Value → Prop :=
  List.Forall₂ (fun entry entry' => entry.1 = entry'.1 ∧ entry.2.Like allowed entry'.2)

namespace Value

variable {allowed : Identity → Identity → Prop}

/-- Arrays are alike when their items are and their tags are the same. -/
theorem like_array_iff {content content' : Identity} {items items' : List Value}
    {tags tags' : Tags} :
    (Value.array content items tags).Like allowed (.array content' items' tags') ↔
      allowed content content' ∧ List.Forall₂ (Like allowed) items items' ∧ tags = tags' := by
  constructor
  · intro alike
    cases alike with
    | array _ identities lengths each =>
      exact ⟨identities, List.forall₂_iff_get.mpr ⟨lengths, each⟩, rfl⟩
  · rintro ⟨identities, items, rfl⟩
    obtain ⟨lengths, each⟩ := List.forall₂_iff_get.mp items
    exact .array tags identities lengths each

/-- Objects are alike when their fields are and their tags are the same. -/
theorem like_object_iff {content content' : Identity} {fields fields' : Fields Value}
    {tags tags' : Tags} :
    (Value.object content fields tags).Like allowed (.object content' fields' tags') ↔
      allowed content content' ∧ fields.Like allowed fields' ∧ tags = tags' := by
  constructor
  · intro alike
    cases alike with
    | object _ identities keys each =>
      exact ⟨identities, Fields.forall₂_of_keys_eq _ keys each, rfl⟩
  · rintro ⟨identities, alike, rfl⟩
    have keys := Fields.keys_eq_of_forall₂ alike (fun _ _ both => both.1)
    exact .object tags identities keys (fun index inside inside' =>
      ((List.forall₂_iff_get.mp alike).2 index inside inside').2)

/-- A value is like itself when every identity may stand for itself. -/
theorem Like.refl (reflexive : ∀ identity, allowed identity identity) (value : Value) :
    value.Like allowed value := by
  induction value using contents_induction with
  | step value ih =>
  cases value with
  | undefined => exact .undefined
  | null => exact .null
  | bool value => exact .bool value
  | number value => exact .number value
  | string value => exact .string value
  | array content items tags =>
    exact .array tags (reflexive content) rfl
      (fun index inside _ => ih items[index] (List.getElem_mem inside))
  | object content fields tags =>
    exact .object tags (reflexive content) rfl (fun index inside _ =>
      ih fields[index].2 (List.mem_map_of_mem (List.getElem_mem inside)))

/-- Values that differ in nothing are equal. -/
theorem eq_of_like {value value' : Value} (alike : value.Like Eq value') : value = value' := by
  induction alike with
  | undefined => rfl
  | null => rfl
  | bool value => rfl
  | number value => rfl
  | string value => rfl
  | array tags identities lengths _ ih =>
    rw [identities, List.ext_getElem lengths ih]
  | @object content content' fields fields' tags identities keys _ ih =>
    have lengths := congrArg List.length keys
    simp only [Fields.keys, List.length_map] at lengths
    rw [identities, List.ext_getElem lengths (fun index inside inside' => ?_)]
    have names := congrArg (fun names => names[index]?) keys
    simp only [Fields.keys, List.getElem?_map, List.getElem?_eq_getElem inside,
      List.getElem?_eq_getElem inside', Option.map_some, Option.some.injEq] at names
    exact Prod.ext names (ih index inside inside')

/-- Values are alike in both directions when identities are. -/
theorem Like.symm (symmetric : ∀ identity other, allowed identity other → allowed other identity)
    {value value' : Value} (alike : value.Like allowed value') : value'.Like allowed value := by
  induction alike with
  | undefined => exact .undefined
  | null => exact .null
  | bool value => exact .bool value
  | number value => exact .number value
  | string value => exact .string value
  | array tags identities lengths _ ih =>
    exact .array tags (symmetric _ _ identities) lengths.symm
      (fun index inside inside' => ih index inside' inside)
  | object tags identities keys _ ih =>
    exact .object tags (symmetric _ _ identities) keys.symm
      (fun index inside inside' => ih index inside' inside)

/-- Values like a third are alike when identities are. -/
theorem Like.trans (transitive : ∀ first second third, allowed first second →
      allowed second third → allowed first third) {value middle value' : Value}
    (alike : value.Like allowed middle) (further : middle.Like allowed value') :
    value.Like allowed value' := by
  induction alike generalizing value' with
  | undefined => exact further
  | null => exact further
  | bool value => exact further
  | number value => exact further
  | string value => exact further
  | array tags identities lengths _ ih =>
    cases further with
    | array _ others lengths' each' =>
      exact .array tags (transitive _ _ _ identities others) (lengths.trans lengths')
        (fun index inside inside' => ih index inside (lengths ▸ inside)
          (each' index (lengths ▸ inside) inside'))
  | object tags identities keys _ ih =>
    cases further with
    | object _ others keys' each' =>
      have lengths := congrArg List.length keys
      simp only [Fields.keys, List.length_map] at lengths
      exact .object tags (transitive _ _ _ identities others) (keys.trans keys')
        (fun index inside inside' => ih index inside (lengths ▸ inside)
          (each' index (lengths ▸ inside) inside'))

/-- Values are identical in both directions. -/
theorem Identical.symm {value value' : Value} (alike : value.Identical value') :
    value'.Identical value :=
  Like.symm (fun _ _ _ => trivial) alike

/-- Values identical to a third are identical. -/
theorem Identical.trans {value middle value' : Value} (alike : value.Identical middle)
    (further : middle.Identical value') : value.Identical value' :=
  Like.trans (fun _ _ _ _ _ => trivial) alike further

/-! ## What does not depend on identities -/

section

variable {value value' : Value}

/-- Values that are alike have the same tags. -/
theorem Like.tags_eq (alike : value.Like allowed value') : value.tags = value'.tags := by
  cases alike <;> rfl

/-- Values that are alike are of one kind. -/
theorem Like.kind_eq (alike : value.Like allowed value') : value.kind = value'.kind := by
  cases alike <;> rfl

/-- Values that are alike are both missing or both there. -/
theorem Like.isUndefined_eq (alike : value.Like allowed value') :
    value.isUndefined = value'.isUndefined := by
  cases alike <;> rfl

/-- Values that are alike stand for the same literal. -/
theorem Like.literal?_eq (alike : value.Like allowed value') :
    value.literal? = value'.literal? := by
  cases alike <;> rfl

/-- The same further tags keep values alike. -/
theorem Like.withTags (alike : value.Like allowed value') (schemas : List Schema) :
    (value.withTags schemas).Like allowed (value'.withTags schemas) := by
  cases alike with
  | undefined => exact .undefined
  | null => exact .null
  | bool value => exact .bool value
  | number value => exact .number value
  | string value => exact .string value
  | array tags identities lengths each => exact .array _ identities lengths each
  | object tags identities keys each => exact .object _ identities keys each

/-- Identical values take further tags alike, and one that carries them already takes none. -/
theorem Like.withTags_of_subset {value again : Value} {schemas : List Schema}
    (alike : value.Identical again) (known : ∀ tags, value.tags? = some tags → schemas ⊆ tags) :
    value.Identical (again.withTags schemas) := by
  have tagged := alike.withTags schemas
  rwa [Value.withTags_of_subset known] at tagged

end

end Value

namespace Fields

variable {allowed : Identity → Identity → Prop} {fields fields' : Fields Value}

/-- A key has alike values in alike fields, or none in both. -/
theorem Like.get?_rel (alike : fields.Like allowed fields') (key : String) :
    Option.Rel (Value.Like allowed) (fields.get? key) (fields'.get? key) := by
  induction alike with
  | nil => exact .none
  | @cons entry entry' _ _ head _ ih =>
    obtain ⟨name, value⟩ := entry
    obtain ⟨name', value'⟩ := entry'
    obtain ⟨names, values⟩ : name = name' ∧ value.Like allowed value' := head
    subst names
    by_cases found : name = key
    · simpa [Fields.get?, found] using Option.Rel.some values
    · simpa [Fields.get?, found] using ih

/-- Looking up a key in alike fields finds alike values. -/
theorem Like.lookup (alike : fields.Like allowed fields') (key : String) :
    ((fields.get? key).getD .undefined).Like allowed ((fields'.get? key).getD .undefined) := by
  have found := alike.get?_rel key
  revert found
  cases fields.get? key <;> cases fields'.get? key <;> rintro (_ | _)
  · exact .undefined
  · assumption

/-- Writing alike values under one key leaves alike fields. -/
theorem Like.insert (alike : fields.Like allowed fields') {value value' : Value}
    (same : value.Like allowed value') (key : String) :
    (fields.insert key value).Like allowed (fields'.insert key value') := by
  induction alike with
  | nil => exact .cons ⟨rfl, same⟩ .nil
  | @cons entry entry' _ _ head tail ih =>
    obtain ⟨name, old⟩ := entry
    obtain ⟨name', old'⟩ := entry'
    obtain ⟨names, olds⟩ : name = name' ∧ old.Like allowed old' := head
    subst names
    by_cases found : name = key
    · simp only [Fields.insert, found, ↓reduceIte]
      exact .cons ⟨rfl, same⟩ tail
    · simp only [Fields.insert, found, ↓reduceIte]
      exact .cons ⟨rfl, olds⟩ ih

end Fields

namespace Value

variable {allowed : Identity → Identity → Prop}

/-! ## Equality of data -/

/-- Items compare alike when their counterparts do. -/
private theorem eqItems_congr {items items' others others' : List Value}
    (alike : List.Forall₂ (fun item item' =>
      ∀ other other', other.Like allowed other' → item.eq other = item'.eq other') items items')
    (among : List.Forall₂ (Like allowed) others others') :
    eqItems items others = eqItems items' others' := by
  induction alike generalizing others others' with
  | nil => cases among <;> rfl
  | cons head _ ih =>
    cases among with
    | nil => rfl
    | cons first rest => rw [eqItems, eqItems, head _ _ first, ih rest]

/-- Fields compare alike when their counterparts do. -/
private theorem eqFields_congr {fields fields' others others' : Fields Value}
    (alike : List.Forall₂ (fun entry entry' => entry.1 = entry'.1 ∧
      ∀ other other', other.Like allowed other' → entry.2.eq other = entry'.2.eq other')
      fields fields')
    (among : others.Like allowed others') :
    eqFields fields others = eqFields fields' others' := by
  induction alike with
  | nil => simp only [eqFields]
  | @cons entry entry' _ _ head _ ih =>
    obtain ⟨key, value⟩ := entry
    obtain ⟨key', value'⟩ := entry'
    obtain ⟨names, same⟩ : key = key' ∧
      ∀ other other', other.Like allowed other' → value.eq other = value'.eq other' := head
    subst names
    have found := among.get?_rel key
    simp only [eqFields, ih]
    revert found
    cases others.get? key <;> cases others'.get? key <;> rintro (_ | _)
    · rfl
    · next alike => simp only [same _ _ alike]

/-- Equality of data does not look at identities. -/
theorem Like.eq_congr {value value' other other' : Value} (alike : value.Like allowed value')
    (among : other.Like allowed other') : value.eq other = value'.eq other' := by
  induction alike generalizing other other' with
  | undefined => cases among <;> rfl
  | null => cases among <;> rfl
  | bool value => cases among <;> rfl
  | number value => cases among <;> rfl
  | string value => cases among <;> rfl
  | array tags identities lengths each ih =>
    cases among with
    | array _ _ lengths' each' =>
      simp only [eq]
      refine eqItems_congr (List.forall₂_iff_get.mpr ⟨lengths, fun index inside inside' => ?_⟩)
        (List.forall₂_iff_get.mpr ⟨lengths', each'⟩)
      exact fun other other' among => ih index inside inside' among
    | _ => simp only [eq]
  | object tags identities keys each ih =>
    cases among with
    | object _ _ keys' each' =>
      have alike := Fields.forall₂_of_keys_eq
        (fun value value' => ∀ other other', Like allowed other other' →
          value.eq other = value'.eq other') keys
        (fun index inside inside' _ _ among => ih index inside inside' among)
      have among := Fields.forall₂_of_keys_eq (Like allowed) keys' each'
      simp only [eq, alike.length_eq, among.length_eq, eqFields_congr alike among]
    | _ => simp only [eq]

end Value

end Conform
