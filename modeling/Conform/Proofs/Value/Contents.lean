import Conform.Value.Basic
import Mathlib.Data.List.Forall2
import Mathlib.Logic.Relation

/-!
# What values hold

The items of an array and the field values of an object are its contents. A value holds
only finitely many contents at finitely many depths, which gives an induction over
contents and a depth. A property holds throughout a value when it holds of the value, of
its contents, of theirs, and so on.
-/

namespace Conform

namespace Value

/-- The items of an array, the field values of an object. -/
def contents : Value → List Value
  | .array _ items _ => items
  | .object _ fields _ => fields.map Prod.snd
  | _ => []

/-- A property holds of a value and of all that it holds at any depth. -/
def Throughout (holds : Value → Prop) (value : Value) : Prop :=
  ∀ part, Relation.ReflTransGen (fun outer inner => inner ∈ outer.contents) value part → holds part

/-- Contents are smaller than the value that they are in. -/
theorem sizeOf_lt_of_mem_contents {value part : Value} (member : part ∈ value.contents) :
    sizeOf part < sizeOf value := by
  cases value with
  | array content items tags =>
    have smaller := List.sizeOf_lt_of_mem (show part ∈ items from member)
    simp only [Value.array.sizeOf_spec]
    omega
  | object content fields tags =>
    obtain ⟨⟨key, held⟩, inside, rfl⟩ := List.mem_map.mp member
    have smaller := List.sizeOf_lt_of_mem inside
    simp only [Prod.mk.sizeOf_spec] at smaller
    simp only [Value.object.sizeOf_spec]
    omega
  | undefined => cases member
  | null => cases member
  | bool value => cases member
  | number value => cases member
  | string value => cases member

/-- What follows for a value from its contents follows for every value. -/
theorem contents_induction {motive : Value → Prop}
    (step : ∀ value, (∀ part ∈ value.contents, motive part) → motive value) (value : Value) :
    motive value :=
  step value (fun part _ => contents_induction step part)
termination_by sizeOf value
decreasing_by exact sizeOf_lt_of_mem_contents (by assumption)

/-! ## Properties throughout a value -/

section

variable {holds : Value → Prop} {value inner : Value}

/-- What holds throughout a value holds of it. -/
theorem Throughout.here (everywhere : value.Throughout holds) : holds value :=
  everywhere value Relation.ReflTransGen.refl

/-- What holds throughout a value holds throughout its contents. -/
theorem Throughout.content (everywhere : value.Throughout holds)
    (member : inner ∈ value.contents) : inner.Throughout holds :=
  fun part reached => everywhere part (Relation.ReflTransGen.head member reached)

/-- A property holds throughout a value when it holds of the value and throughout its
contents. -/
theorem throughout_iff :
    value.Throughout holds ↔ holds value ∧ ∀ part ∈ value.contents, part.Throughout holds := by
  constructor
  · intro everywhere
    exact ⟨everywhere.here, fun part member => everywhere.content member⟩
  · rintro ⟨here, below⟩ part reached
    rcases Relation.ReflTransGen.cases_head reached with same | ⟨next, member, further⟩
    · exact same ▸ here
    · exact below next member part further

/-- It holds throughout an array when it does of the array and throughout the items. -/
@[simp] theorem throughout_array_iff {content : Identity} {items : List Value} {tags : Tags} :
    (Value.array content items tags).Throughout holds ↔
      holds (.array content items tags) ∧ ∀ item ∈ items, item.Throughout holds :=
  throughout_iff

/-- It holds throughout an object when it does of the object and throughout the fields. -/
@[simp] theorem throughout_object_iff {content : Identity} {fields : Fields Value} {tags : Tags} :
    (Value.object content fields tags).Throughout holds ↔
      holds (.object content fields tags) ∧ ∀ entry ∈ fields, entry.2.Throughout holds :=
  throughout_iff.trans (and_congr_right fun _ => List.forall_mem_map)

/-- It holds throughout a scalar when it holds of it. -/
theorem throughout_scalar_iff (scalar : value.contents = []) :
    value.Throughout holds ↔ holds value := by
  rw [throughout_iff, scalar]
  simp

/-- It holds throughout what is absent when it holds of that. -/
@[simp] theorem throughout_undefined_iff : Value.undefined.Throughout holds ↔ holds .undefined :=
  throughout_scalar_iff rfl

/-- It holds throughout null when it holds of it. -/
@[simp] theorem throughout_null_iff : Value.null.Throughout holds ↔ holds .null :=
  throughout_scalar_iff rfl

/-- It holds throughout a number when it holds of it. -/
@[simp] theorem throughout_number_iff {number : Number} :
    (Value.number number).Throughout holds ↔ holds (.number number) :=
  throughout_scalar_iff rfl

/-- It holds throughout a text when it holds of it. -/
@[simp] theorem throughout_string_iff {text : String} :
    (Value.string text).Throughout holds ↔ holds (.string text) :=
  throughout_scalar_iff rfl

/-- Tags do not touch the contents. -/
theorem contents_withTags (value : Value) (schemas : List Schema) :
    (value.withTags schemas).contents = value.contents := by
  cases value <;> rfl

/-- Tags are added in one or two stages. -/
theorem withTags_withTags (value : Value) (schemas others : List Schema) :
    (value.withTags schemas).withTags others = value.withTags (schemas ++ others) := by
  cases value <;> simp only [withTags, Tags.merge, List.foldl_append]

/-- Tags do not make a value missing. -/
theorem isUndefined_withTags (value : Value) (schemas : List Schema) :
    (value.withTags schemas).isUndefined = value.isUndefined := by
  cases value <;> rfl

/-- A value that carries the tags stays as it is when it is given them. -/
theorem withTags_of_subset {value : Value} {schemas : List Schema}
    (known : ∀ tags, value.tags? = some tags → schemas ⊆ tags) :
    value.withTags schemas = value := by
  cases value <;> first | rfl | skip
  · rw [withTags, Tags.merge_of_subset (known _ rfl)]
  · rw [withTags, Tags.merge_of_subset (known _ rfl)]

/-- A property of a value with other tags holds throughout when it held throughout. -/
theorem Throughout.withTags {schemas : List Schema} (everywhere : value.Throughout holds)
    (here : holds (value.withTags schemas)) : (value.withTags schemas).Throughout holds := by
  refine throughout_iff.mpr ⟨here, ?_⟩
  rw [contents_withTags]
  exact fun part member => everywhere.content member

/-- A field's value shares what holds throughout its object. -/
theorem Throughout.field {content : Identity} {fields : Fields Value} {tags : Tags} {key : String}
    (everywhere : (Value.object content fields tags).Throughout holds)
    (member : (key, value) ∈ fields) : value.Throughout holds :=
  everywhere.content (List.mem_map_of_mem (f := Prod.snd) member)

/-- An item shares what holds throughout its array. -/
theorem Throughout.item {content : Identity} {items : List Value} {tags : Tags}
    (everywhere : (Value.array content items tags).Throughout holds)
    (member : value ∈ items) : value.Throughout holds :=
  everywhere.content member

/-- The part one step down is among the contents. -/
theorem mem_contents_of_child? {position : Position} (held : value.child? position = some inner) :
    inner ∈ value.contents := by
  cases value with
  | array content items tags =>
    cases position with
    | index index => exact List.mem_of_getElem? held
    | key key => cases held
  | object content fields tags =>
    cases position with
    | key key => exact List.mem_map_of_mem (f := Prod.snd) (Fields.mem_of_get? held)
    | index index => cases held
  | _ => cases position <;> cases held

/-- A part at any place shares what holds throughout the whole. -/
theorem Throughout.at? {place : List Position} (everywhere : value.Throughout holds)
    (found : value.at? place = some inner) : inner.Throughout holds := by
  induction place generalizing value with
  | nil =>
    cases found
    exact everywhere
  | cons position rest ih =>
    obtain ⟨child, held, further⟩ := Option.bind_eq_some_iff.mp found
    exact ih (everywhere.content (mem_contents_of_child? held)) further

end

/-! ## Depth -/

mutual

/-- How deeply containers nest inside a value. -/
def depth : Value → Nat
  | .array _ items _ => depthOfItems items + 1
  | .object _ fields _ => depthOfFields fields + 1
  | _ => 0

/-- The greatest depth among items. -/
def depthOfItems : List Value → Nat
  | [] => 0
  | item :: rest => max (depth item) (depthOfItems rest)

/-- The greatest depth among field values. -/
def depthOfFields : List (String × Value) → Nat
  | [] => 0
  | (_, value) :: rest => max (depth value) (depthOfFields rest)

end

/-- The depth of items is bounded when the depth of each is. -/
theorem depthOfItems_le_iff (items : List Value) (bound : Nat) :
    depthOfItems items ≤ bound ↔ ∀ item ∈ items, item.depth ≤ bound := by
  induction items with
  | nil => simp [depthOfItems]
  | cons item rest ih => rw [depthOfItems, Nat.max_le, ih, List.forall_mem_cons]

/-- The depth of fields is bounded when the depth of each is. -/
theorem depthOfFields_le_iff (fields : Fields Value) (bound : Nat) :
    depthOfFields fields ≤ bound ↔ ∀ entry ∈ fields, entry.2.depth ≤ bound := by
  induction fields with
  | nil => simp [depthOfFields]
  | cons entry rest ih =>
    obtain ⟨key, value⟩ := entry
    rw [depthOfFields, Nat.max_le, ih, List.forall_mem_cons]

/-- What a value holds is less deep. -/
theorem depth_lt_of_mem_contents {value part : Value} (member : part ∈ value.contents) :
    part.depth < value.depth := by
  cases value with
  | array content items tags =>
    exact Nat.lt_succ_of_le ((depthOfItems_le_iff items _).mp (Nat.le_refl _) part member)
  | object content fields tags =>
    obtain ⟨entry, inside, rfl⟩ := List.mem_map.mp member
    exact Nat.lt_succ_of_le ((depthOfFields_le_iff fields _).mp (Nat.le_refl _) entry inside)
  | _ => cases member

/-! ## Nesting

Where a lone scalar is taken for an array, an answer may be deeper than the value, but it
nests no more objects.
-/

/-- A scalar that an array may take for its only item. -/
def isLone : Value → Bool
  | .bool _ => true
  | .number _ => true
  | .string _ => true
  | _ => false

mutual

/-- How deeply containers nest inside a value; arrays count only if they are told to. -/
def nesting (arrays : Bool) : Value → Nat
  | .array _ items _ => nestingOfItems arrays items + arrays.toNat
  | .object _ fields _ => nestingOfFields arrays fields + 1
  | _ => 0

/-- The greatest nesting among items. -/
def nestingOfItems (arrays : Bool) : List Value → Nat
  | [] => 0
  | item :: rest => max (nesting arrays item) (nestingOfItems arrays rest)

/-- The greatest nesting among field values. -/
def nestingOfFields (arrays : Bool) : List (String × Value) → Nat
  | [] => 0
  | (_, value) :: rest => max (nesting arrays value) (nestingOfFields arrays rest)

end

/-- The nesting of items is bounded when the nesting of each is. -/
theorem nestingOfItems_le_iff (arrays : Bool) (items : List Value) (bound : Nat) :
    nestingOfItems arrays items ≤ bound ↔ ∀ item ∈ items, item.nesting arrays ≤ bound := by
  induction items with
  | nil => simp [nestingOfItems]
  | cons item rest ih => rw [nestingOfItems, Nat.max_le, ih, List.forall_mem_cons]

/-- The nesting of fields is bounded when the nesting of each is. -/
theorem nestingOfFields_le_iff (arrays : Bool) (fields : Fields Value) (bound : Nat) :
    nestingOfFields arrays fields ≤ bound ↔ ∀ entry ∈ fields, entry.2.nesting arrays ≤ bound := by
  induction fields with
  | nil => simp [nestingOfFields]
  | cons entry rest ih =>
    obtain ⟨key, value⟩ := entry
    rw [nestingOfFields, Nat.max_le, ih, List.forall_mem_cons]

/-- A field nests less than its object. -/
theorem nesting_field {content : Identity} {fields : Fields Value} {tags : Tags}
    {entry : String × Value} (arrays : Bool) (member : entry ∈ fields) :
    entry.2.nesting arrays < (Value.object content fields tags).nesting arrays :=
  Nat.lt_succ_of_le ((nestingOfFields_le_iff arrays fields _).mp (Nat.le_refl _) entry member)

/-- A scalar does not nest. -/
theorem nesting_eq_zero {value : Value} (arrays : Bool) (scalar : value.tags? = none) :
    value.nesting arrays = 0 := by
  cases value <;> first | rfl | cases scalar

/-- Tags do not change the nesting. -/
@[simp] theorem nesting_withTags (arrays : Bool) (value : Value) (schemas : List Schema) :
    (value.withTags schemas).nesting arrays = value.nesting arrays := by
  cases value <;> rfl

mutual

/-- The depth counts arrays. -/
theorem nesting_true (value : Value) : value.nesting true = value.depth := by
  cases value with
  | array content items tags => rw [nesting, depth, nestingOfItems_true, Bool.toNat_true]
  | object content fields tags => rw [nesting, depth, nestingOfFields_true]
  | _ => rfl

/-- Where arrays count, items nest as deep as they are. -/
theorem nestingOfItems_true (items : List Value) : nestingOfItems true items = depthOfItems items :=
  match items with
  | [] => rfl
  | item :: rest => by
    rw [nestingOfItems, depthOfItems, nesting_true item, nestingOfItems_true rest]

/-- Where arrays count, fields nest as deep as they are. -/
theorem nestingOfFields_true (fields : Fields Value) :
    nestingOfFields true fields = depthOfFields fields :=
  match fields with
  | [] => rfl
  | (key, value) :: rest => by
    rw [nestingOfFields, depthOfFields, nesting_true value, nestingOfFields_true rest]

end

end Value

end Conform
