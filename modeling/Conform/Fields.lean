/-!
# Ordered fields

A list of keyed entries in the order in which the keys were first written. Writing
a key that is present replaces its entry in place, so a list built by writing holds
each key once.
-/

namespace Conform

/-- Keyed entries in order. -/
abbrev Fields (α : Type) :=
  List (String × α)

namespace Fields

variable {α β : Type}

/-- The keys in order. -/
def keys (fields : Fields α) : List String :=
  fields.map Prod.fst

/-- The entry of a key. -/
def get? (key : String) : Fields α → Option α
  | [] => none
  | (name, value) :: rest => if name = key then some value else get? key rest

/-- Whether the key has an entry. -/
def has (fields : Fields α) (key : String) : Bool :=
  fields.any (fun entry => entry.1 = key)

/-- Writes an entry: in place when the key is present, else at the end. -/
def insert (key : String) (value : α) : Fields α → Fields α
  | [] => [(key, value)]
  | (name, old) :: rest =>
    if name = key then (name, value) :: rest else (name, old) :: insert key value rest

/-- The fields that writing the entries in order leaves. -/
def ofList (entries : List (String × α)) : Fields α :=
  entries.foldl (fun fields entry => fields.insert entry.1 entry.2) []

/-- Every key occurs once. -/
def Distinct (fields : Fields α) : Prop :=
  fields.keys.Nodup

/-- Reading back the key just written. -/
theorem get?_insert_self (key : String) (value : α) (fields : Fields α) :
    (fields.insert key value).get? key = some value := by
  induction fields with
  | nil => simp [insert, get?]
  | cons entry rest ih =>
    obtain ⟨name, old⟩ := entry
    by_cases same : name = key <;> simp [insert, get?, same, ih]

/-- The first of two lists of fields is searched before the second. -/
theorem get?_append {key : String} (fields others : Fields α) :
    (fields ++ others).get? key = (fields.get? key).or (others.get? key) := by
  induction fields with
  | nil => rfl
  | cons entry rest ih =>
    obtain ⟨name, value⟩ := entry
    by_cases same : name = key
    · simp [Fields.get?, same]
    · simpa [Fields.get?, same] using ih

/-- Writing one key leaves the others. -/
theorem get?_insert_of_ne {key other : String} (value : α) (fields : Fields α)
    (different : other ≠ key) : (fields.insert key value).get? other = fields.get? other := by
  induction fields with
  | nil => simp [insert, get?, Ne.symm different]
  | cons entry rest ih =>
    obtain ⟨name, old⟩ := entry
    by_cases same : name = key
    · subst same
      simp [insert, get?, Ne.symm different]
    · simp [insert, get?, same, ih]

/-- Writing adds its key at the end unless it was present. -/
theorem keys_insert (key : String) (value : α) (fields : Fields α) :
    (fields.insert key value).keys =
      if key ∈ fields.keys then fields.keys else fields.keys ++ [key] := by
  induction fields with
  | nil => simp [insert, keys]
  | cons entry rest ih =>
    obtain ⟨name, old⟩ := entry
    by_cases same : name = key
    · simp [insert, keys, same]
    · have apart : ¬ key = name := fun equal => same equal.symm
      simp only [keys] at ih
      by_cases present : key ∈ rest.map Prod.fst <;>
        simp [insert, same, keys, ih, apart, present]

/-- A field that is found is one of the fields. -/
theorem mem_of_get? {key : String} {value : α} {fields : Fields α}
    (found : fields.get? key = some value) : (key, value) ∈ fields := by
  induction fields with
  | nil => simp [get?] at found
  | cons entry rest ih =>
    obtain ⟨name, first⟩ := entry
    by_cases same : name = key
    · simp only [get?, same, ↓reduceIte, Option.some.injEq] at found
      simp [same, found]
    · simp only [get?, same, ↓reduceIte] at found
      exact List.mem_cons_of_mem _ (ih found)

/-- When keys are distinct, each field is found under its key. -/
theorem get?_of_mem {key : String} {value : α} {fields : Fields α} (distinct : fields.Distinct)
    (member : (key, value) ∈ fields) : fields.get? key = some value := by
  induction fields with
  | nil => cases member
  | cons entry rest ih =>
    obtain ⟨name, first⟩ := entry
    obtain ⟨fresh, further⟩ := List.nodup_cons.mp distinct
    obtain same | later := List.mem_cons.mp member
    · obtain ⟨rfl, rfl⟩ := Prod.mk.injEq .. ▸ same
      simp [get?]
    · have different : name ≠ key := by
        rintro rfl
        exact fresh (List.mem_map.mpr ⟨_, later, rfl⟩)
      simp only [get?, different, ↓reduceIte]
      exact ih further later

/-- A key is absent exactly when it is not among the keys. -/
theorem get?_eq_none_iff {key : String} {fields : Fields α} :
    fields.get? key = none ↔ key ∉ fields.keys := by
  induction fields with
  | nil => simp [get?, keys]
  | cons entry rest ih =>
    obtain ⟨name, first⟩ := entry
    by_cases same : name = key
    · simp [get?, keys, same]
    · have apart : ¬ key = name := fun equal => same equal.symm
      simp only [keys] at ih
      simp [get?, keys, same, apart, ih]

/-- A key that has an entry is found. -/
theorem exists_get?_of_mem_keys {key : String} {fields : Fields α} (member : key ∈ fields.keys) :
    ∃ value, fields.get? key = some value := by
  cases found : fields.get? key with
  | none => exact absurd member (get?_eq_none_iff.mp found)
  | some value => exact ⟨value, rfl⟩

end Fields

end Conform
