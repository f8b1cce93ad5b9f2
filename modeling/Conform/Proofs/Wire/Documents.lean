import Conform.Proofs.Attempt.Answers
import Conform.Wire
import Mathlib.Data.List.Perm.Basic

/-!
# Documents

Two documents are alike when reordering the fields of objects at every depth makes them
equal; keys, texts and the kinds of numbers are the same. A value that was read from a
document and carries no tags is written as that document, in wire form or not.
-/

namespace Conform

namespace Fields

variable {α : Type} {fields : Fields α}

/-- Fields may be reordered to have given keys when these are theirs in another order. -/
theorem exists_perm_of_keys {names : List String} (keys : fields.keys.Perm names) :
    ∃ reordered : Fields α, fields.Perm reordered ∧ reordered.keys = names := by
  have own : List.Forall₂ (fun name entry => entry.1 = name) fields.keys fields :=
    List.forall₂_map_left_iff.mpr (List.forall₂_same.mpr fun _ _ => rfl)
  obtain ⟨reordered, named, order⟩ := List.perm_comp_forall₂ keys.symm own
  refine ⟨reordered, order.symm, ?_⟩
  have names := List.forall₂_map_right_iff.mpr (named.imp fun _ _ same => same.symm)
  exact (List.forall₂_eq_eq_eq ▸ names).symm

/-- Writing a fresh key appends it. -/
theorem insert_of_notMem {key : String} (value : α) (fresh : key ∉ fields.keys) :
    fields.insert key value = fields ++ [(key, value)] := by
  induction fields with
  | nil => rfl
  | cons entry rest ih =>
    obtain ⟨name, old⟩ := entry
    obtain ⟨different, further⟩ := List.ne_and_not_mem_of_not_mem_cons fresh
    rw [insert, if_neg (Ne.symm different), ih further, List.cons_append]

/-- Writing entries of distinct keys one by one leaves them as they are. -/
theorem ofList_of_distinct (distinct : fields.Distinct) : ofList fields = fields := by
  have further : ∀ (entries written : Fields α), (written ++ entries).Distinct →
      entries.foldl (fun fields entry => fields.insert entry.1 entry.2) written =
        written ++ entries := by
    intro entries
    induction entries with
    | nil => intro written _; simp
    | cons entry rest ih =>
      intro written distinct
      obtain ⟨key, value⟩ := entry
      have fresh : key ∉ written.keys := by
        intro member
        simp only [Distinct, keys, List.map_append, List.map_cons] at distinct member
        exact (List.nodup_append.mp distinct).2.2 key member key (.head _) rfl
      rw [List.foldl_cons, insert_of_notMem value fresh, ih _ (by simpa using distinct)]
      simp
  exact further fields [] distinct

/-- The fields that have a value. -/
def present (fields : Fields Value) : Fields Value :=
  fields.filter (fun entry => !entry.2.isUndefined)

/-- Their keys are among those of the fields, in the same order. -/
theorem present_keys_sublist (fields : Fields Value) :
    fields.present.keys.Sublist fields.keys :=
  List.filter_sublist.map Prod.fst

end Fields

namespace Json

/-- The same document up to the order of fields. -/
inductive Alike : Json → Json → Prop
  | null : Alike .null .null
  | bool (value : Bool) : Alike (.bool value) (.bool value)
  | number (value : Number) : Alike (.number value) (.number value)
  | string (value : String) : Alike (.string value) (.string value)
  | array {items items' : List Json} (lengths : items.length = items'.length)
      (each : ∀ (index : Nat) (inside : index < items.length) (inside' : index < items'.length),
        Alike items[index] items'[index]) : Alike (.array items) (.array items')
  | object {fields reordered fields' : Fields Json} (order : fields.Perm reordered)
      (keys : reordered.keys = fields'.keys)
      (each : ∀ (index : Nat) (inside : index < reordered.length)
        (inside' : index < fields'.length), Alike reordered[index].2 fields'[index].2) :
      Alike (.object fields) (.object fields')

/-- Arrays are alike when their items are. -/
theorem Alike.items {items items' : List Json} (alike : List.Forall₂ Alike items items') :
    Alike (.array items) (.array items') :=
  .array alike.length_eq (List.forall₂_iff_get.mp alike).2

/-- Objects are alike when they have the same keys and alike values under each. -/
theorem Alike.fields {fields fields' : Fields Json} (keys : fields.keys.Perm fields'.keys)
    (each : ∀ key item item', (key, item) ∈ fields → (key, item') ∈ fields' → Alike item item') :
    Alike (.object fields) (.object fields') := by
  obtain ⟨reordered, order, same⟩ := Fields.exists_perm_of_keys keys
  have entries := Fields.forall₂_of_keys_eq (fun _ _ => True) same (fun _ _ _ => trivial)
  refine .object order same (fun index inside inside' => ?_)
  have name := ((List.forall₂_iff_get.mp entries).2 index inside inside').1
  simp only [List.get_eq_getElem] at name
  refine each reordered[index].1 _ _ (order.mem_iff.mpr (List.getElem_mem inside)) ?_
  rw [name]
  exact List.getElem_mem inside'

mutual

/-- A document is like itself. -/
theorem Alike.refl : (document : Json) → document.Alike document
  | .null => .null
  | .bool value => .bool value
  | .number value => .number value
  | .string value => .string value
  | .array items => .items (items_refl items)
  | .object fields => .object (.refl fields) rfl (fun index inside _ =>
      (List.forall₂_iff_get.mp (fields_refl fields)).2 index inside inside)

/-- Items are like themselves. -/
theorem items_refl : (items : List Json) → List.Forall₂ Alike items items
  | [] => .nil
  | item :: rest => .cons (Alike.refl item) (items_refl rest)

/-- Fields are like themselves. -/
theorem fields_refl : (fields : List (String × Json)) →
    List.Forall₂ (fun entry entry' => Alike entry.2 entry'.2) fields fields
  | [] => .nil
  | (_, value) :: rest => .cons (Alike.refl value) (fields_refl rest)

end

end Json

namespace Value

variable (definitions : Definitions)

/-- Items are encoded one by one. -/
theorem toWireItems_eq_map (items : List Value) :
    toWireItems definitions items = items.map (toWire definitions) := by
  induction items with
  | nil => rfl
  | cons item rest ih => rw [toWireItems, ih, List.map_cons]

/-- Items are written one by one. -/
theorem toItems_eq_map (items : List Value) : toItems items = items.map toJson := by
  induction items with
  | nil => rfl
  | cons item rest ih => rw [toItems, ih, List.map_cons]

/-- The fields that have a value are written one by one. -/
theorem toWireFields_eq_present (tags : Tags) (fields : Fields Value) :
    toWireFields definitions tags fields = fields.present.map
      (fun entry => (wireKey definitions tags entry.1, entry.2.toWire definitions)) := by
  induction fields with
  | nil => rfl
  | cons entry rest ih =>
    rw [toWireFields, ih, Fields.present, Fields.present, List.filter_cons]
    cases entry.2.isUndefined <;> rfl

/-- Fields that all have a value are written one by one. -/
theorem toWireFields_eq_map (tags : Tags) {fields : Fields Value}
    (there : ∀ entry ∈ fields, entry.2.isUndefined = false) :
    toWireFields definitions tags fields =
      fields.map (fun entry => (wireKey definitions tags entry.1, entry.2.toWire definitions)) := by
  have present : fields.present = fields :=
    List.filter_eq_self.mpr fun entry member => by rw [there entry member]; rfl
  rw [toWireFields_eq_present, present]

/-- Fields that are all there are written one by one. -/
theorem toFields_eq_map {fields : Fields Value}
    (there : ∀ entry ∈ fields, entry.2.isUndefined = false) :
    toFields fields = fields.map (fun entry => (entry.1, entry.2.toJson)) := by
  induction fields with
  | nil => rfl
  | cons entry rest ih =>
    obtain ⟨here, further⟩ := List.forall_mem_cons.mp there
    rw [toFields, here, ih further]
    rfl

/-- A value as it is read from a document. -/
structure Document (value : Value) : Prop extends value.Bare where
  there : value.isUndefined = false

variable {definitions} {value : Value}

/-- A value without tags is written as it is. -/
theorem toWire_eq_toJson (document : value.Throughout Document) :
    value.toWire definitions = value.toJson := by
  induction value using contents_induction with
  | step value ih =>
  cases value with
  | array content items tags =>
    rw [toWire, toJson, toWireItems_eq_map, toItems_eq_map]
    exact congrArg Json.array (List.map_congr_left fun item member =>
      ih item member (document.item member))
  | object content fields tags =>
    obtain rfl : tags = [] := document.here.untagged
    have distinct : Fields.Distinct fields := document.here.keyed
    have there : ∀ entry ∈ fields, entry.2.isUndefined = false :=
      fun entry member => (document.field member).here.there
    have same : fields.map (fun entry => (wireKey definitions [] entry.1,
        entry.2.toWire definitions)) = fields.map (fun entry => (entry.1, entry.2.toJson)) :=
      List.map_congr_left fun entry member => Prod.ext rfl
        (ih entry.2 (List.mem_map_of_mem member) (document.field member))
    rw [toWire, toJson, toWireFields_eq_map definitions [] there, toFields_eq_map there, same,
      Fields.ofList_of_distinct]
    simpa [Fields.Distinct, Fields.keys, Function.comp_def] using distinct
  | _ => rfl

/-! ## Values of documents -/

mutual

/-- The value of a document is written as that document. -/
theorem toJson_ofJson (place : Identity) : (document : Json) →
    (ofJson place document).toJson = document
  | .null => rfl
  | .bool _ => rfl
  | .number _ => rfl
  | .string _ => rfl
  | .array items => by rw [ofJson, toJson, toItems_ofItems place 0 items]
  | .object fields => by rw [ofJson, toJson, toFields_ofFields place 0 fields]

/-- Items that are read are written as they were. -/
theorem toItems_ofItems (place : Identity) (index : Nat) : (items : List Json) →
    toItems (ofItems place index items) = items
  | [] => rfl
  | item :: rest => by
    rw [ofItems, toItems, toJson_ofJson (place.part index) item,
      toItems_ofItems place (index + 1) rest]

/-- Fields that are read are written as they were. -/
theorem toFields_ofFields (place : Identity) (index : Nat) : (fields : List (String × Json)) →
    toFields (ofFields place index fields) = fields
  | [] => rfl
  | (key, value) :: rest => by
    have there : (ofJson (place.part index) value).isUndefined = false := by cases value <;> rfl
    rw [ofFields, toFields, there, toJson_ofJson (place.part index) value,
      toFields_ofFields place (index + 1) rest]
    rfl

end

/-- An item that is read comes from one of the document. -/
theorem mem_ofItems {place : Identity} {index : Nat} {items : List Json} {item : Value}
    (member : item ∈ ofItems place index items) : ∃ origin inner, item = ofJson origin inner := by
  induction items generalizing index with
  | nil => cases member
  | cons first rest ih =>
    rcases List.mem_cons.mp member with rfl | later
    · exact ⟨_, first, rfl⟩
    · exact ih later

/-- A field that is read comes from one of the document. -/
theorem mem_ofFields {place : Identity} {index : Nat} {fields : List (String × Json)}
    {entry : String × Value} (member : entry ∈ ofFields place index fields) :
    ∃ origin inner, entry.2 = ofJson origin inner := by
  induction fields generalizing index with
  | nil => cases member
  | cons first rest ih =>
    rcases List.mem_cons.mp member with rfl | later
    · exact ⟨_, first.2, rfl⟩
    · exact ih later

/-- What the value of a document holds are values of documents. -/
theorem mem_contents_ofJson {place : Identity} {document : Json} {part : Value}
    (member : part ∈ (ofJson place document).contents) :
    ∃ origin inner, part = ofJson origin inner := by
  cases document with
  | array items => exact mem_ofItems member
  | object fields =>
    obtain ⟨entry, inside, rfl⟩ := List.mem_map.mp member
    exact mem_ofFields inside
  | _ => cases member

/-- The value of a document whose objects have distinct keys. -/
theorem document_ofJson {place : Identity} {document : Json}
    (keyed : (ofJson place document).Throughout Keyed) :
    (ofJson place document).Throughout Document := by
  intro part reached
  obtain ⟨origin, inner, rfl⟩ : ∃ origin inner, part = ofJson origin inner := by
    induction reached with
    | refl => exact ⟨place, document, rfl⟩
    | tail _ member ih =>
      obtain ⟨origin, inner, rfl⟩ := ih
      exact mem_contents_ofJson member
  exact { untagged := by cases inner <;> rfl, keyed := keyed _ reached,
          there := by cases inner <;> rfl }

end Value

end Conform
