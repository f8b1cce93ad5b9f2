import Conform.Proofs.Revalidation.Agreement
import Mathlib.Data.List.Perm.Subperm

/-!
# Equal values

Values are equal when they hold the same data: numbers of one value however they are given,
and objects of the same fields in any order. Tags are not looked at, so that equal values may
carry any; a parameter says which tags may stand for each other. With equal tags, equal values
carry the same tags at the same places.

Equality computes by the fields of one side and their number. It says what it should of values
with distinct keys only.
-/

namespace Conform

namespace Value

/-- The same data, under tags that may stand for each other. The keys of objects are distinct. -/
inductive Equates (among : Tags → Tags → Prop) : Value → Value → Prop
  | undefined : Equates among .undefined .undefined
  | null : Equates among .null .null
  | bool (value : Bool) : Equates among (.bool value) (.bool value)
  | number {number number' : Number} (same : number.numericEq number' = true) :
      Equates among (.number number) (.number number')
  | string (value : String) : Equates among (.string value) (.string value)
  | array {content content' : Identity} {items items' : List Value} {tags tags' : Tags}
      (tagged : among tags tags') (lengths : items.length = items'.length)
      (each : ∀ (index : Nat) (inside : index < items.length) (inside' : index < items'.length),
        Equates among items[index] items'[index]) :
      Equates among (.array content items tags) (.array content' items' tags')
  | object {content content' : Identity} {fields fields' : Fields Value} {tags tags' : Tags}
      (tagged : among tags tags') (distinct : fields.Distinct) (distinct' : fields'.Distinct)
      (keys : ∀ key, key ∈ fields.keys ↔ key ∈ fields'.keys)
      (each : ∀ key : String, Equates among (fields.lookup key) (fields'.lookup key)) :
      Equates among (.object content fields tags) (.object content' fields' tags')

/-- Containers at the same place carry the same tags. -/
def TaggedAlike (value value' : Value) : Prop :=
  ∀ place part part', value.at? place = some part → value'.at? place = some part' →
    part.tags? = part'.tags?

namespace Equates

variable {among : Tags → Tags → Prop} {value value' value'' : Value}

/-- Values that equal are of one kind. -/
theorem kind_eq (same : value.Equates among value') : value.kind = value'.kind := by
  cases same <;> rfl

/-- Values equal in both directions when their tags do. -/
theorem symm (symmetric : ∀ tags tags', among tags tags' → among tags' tags)
    (same : value.Equates among value') : value'.Equates among value := by
  induction same with
  | undefined => exact .undefined
  | null => exact .null
  | bool value => exact .bool value
  | number same =>
    rw [Number.numericEq, Binary64.numericEq, beq_iff_eq] at same
    apply Equates.number
    rw [Number.numericEq, Binary64.numericEq, same, beq_self_eq_true]
  | string value => exact .string value
  | array tagged lengths each ih =>
    exact .array (symmetric _ _ tagged) lengths.symm
      (fun index inside inside' => ih index inside' inside)
  | object tagged distinct distinct' keys each ih =>
    exact .object (symmetric _ _ tagged) distinct' distinct (fun key => (keys key).symm) ih

/-- Values that equal a third equal each other when their tags do. -/
theorem trans (transitive : ∀ tags tags' tags'', among tags tags' → among tags' tags'' →
      among tags tags'') (same : value.Equates among value')
    (further : value'.Equates among value'') : value.Equates among value'' := by
  induction same generalizing value'' with
  | undefined => exact further
  | null => exact further
  | bool value => exact further
  | number same =>
    cases further with
    | number same' =>
      rw [Number.numericEq, Binary64.numericEq, beq_iff_eq] at same same'
      apply Equates.number
      rw [Number.numericEq, Binary64.numericEq, same, same', beq_self_eq_true]
  | string value => exact further
  | array tagged lengths each ih =>
    cases further with
    | array tagged' lengths' each' =>
      refine .array (transitive _ _ _ tagged tagged') (lengths.trans lengths') ?_
      intro index inside inside'
      exact ih index inside (lengths ▸ inside) (each' index (lengths ▸ inside) inside')
  | object tagged distinct _ keys each ih =>
    cases further with
    | object tagged' _ distinct' keys' each' =>
      exact .object (transitive _ _ _ tagged tagged') distinct distinct'
        (fun key => (keys key).trans (keys' key)) (fun key => ih key (each' key))

/-- Tags may stand for each other under any weaker condition. -/
theorem imp (same : value.Equates among value') (weaker : Tags → Tags → Prop)
    (among_imp : ∀ tags tags', among tags tags' → weaker tags tags') :
    value.Equates weaker value' := by
  induction same with
  | undefined => exact .undefined
  | null => exact .null
  | bool value => exact .bool value
  | number same => exact .number same
  | string value => exact .string value
  | array tagged lengths each ih => exact .array (among_imp _ _ tagged) lengths ih
  | object tagged distinct distinct' keys each ih =>
    exact .object (among_imp _ _ tagged) distinct distinct' keys ih

/-- The keys of equal values are distinct. -/
theorem keyed (same : value.Equates among value') : value.Throughout Keyed := by
  induction same with
  | array tagged lengths each ih =>
    refine throughout_array_iff.mpr ⟨trivial, fun item member => ?_⟩
    obtain ⟨index, inside, rfl⟩ := List.getElem_of_mem member
    exact ih index inside (lengths ▸ inside)
  | object tagged distinct distinct' keys each ih =>
    refine throughout_object_iff.mpr ⟨distinct, fun entry member => ?_⟩
    rw [← Fields.lookup_of_mem distinct member]
    exact ih entry.1
  | _ => exact (throughout_scalar_iff rfl).mpr trivial

/-- A scalar equates itself. -/
theorem refl_of_scalar (among : Tags → Tags → Prop) (scalar : value.tags? = none) :
    value.Equates among value := by
  cases value with
  | undefined => exact .undefined
  | null => exact .null
  | bool value => exact .bool value
  | number number =>
    apply Equates.number
    rw [Number.numericEq, Binary64.numericEq, beq_self_eq_true]
  | string value => exact .string value
  | array => cases scalar
  | object => cases scalar

/-- A value with distinct keys equates itself. -/
theorem refl (reflexive : ∀ tags, among tags tags) (keyed : value.Throughout Keyed) :
    value.Equates among value := by
  induction value using contents_induction with
  | step value ih =>
  cases value with
  | array content items tags =>
    exact .array (reflexive tags) rfl fun index inside _ =>
      ih _ (List.getElem_mem inside) (keyed.item (List.getElem_mem inside))
  | object content fields tags =>
    refine .object (reflexive tags) keyed.here keyed.here (fun _ => Iff.rfl) (fun key => ?_)
    cases there : (Fields.lookup key fields).isUndefined with
    | true =>
      rw [eq_undefined there]
      exact .undefined
    | false =>
      have member := Fields.mem_of_lookup there
      exact ih _ (List.mem_map_of_mem (f := Prod.snd) member) (keyed.field member)
  | _ => exact refl_of_scalar among rfl

/-- Values with the same data are equal. -/
theorem eq (same : value.Equates among value') : value.eq value' = true := by
  induction same with
  | undefined => exact eq_self_of_scalar rfl
  | null => exact eq_self_of_scalar rfl
  | bool value => exact eq_self_of_scalar rfl
  | number same => simpa only [Value.eq] using same
  | string value => exact eq_self_of_scalar rfl
  | array tagged lengths each ih =>
    rw [Value.eq]
    exact eqItems_of_forall₂ (List.forall₂_iff_get.mpr ⟨lengths, ih⟩)
  | object tagged distinct distinct' keys each ih =>
    exact eq_of_lookup distinct distinct' keys (fun key _ => ih key)

/-- What holds of values by their kind holds throughout both. -/
theorem throughout_kind (holds : Kind → Prop) (same : value.Equates among value')
    (everywhere : value.Throughout (fun part => holds part.kind)) :
    value'.Throughout (fun part => holds part.kind) := by
  induction same with
  | array tagged lengths each ih =>
    refine throughout_array_iff.mpr ⟨everywhere.here, fun item member => ?_⟩
    obtain ⟨index, inside', rfl⟩ := List.getElem_of_mem member
    have inside := lengths ▸ inside'
    exact ih index inside inside' (everywhere.item (List.getElem_mem inside))
  | object tagged distinct distinct' keys each ih =>
    refine throughout_object_iff.mpr ⟨everywhere.here, fun entry member => ?_⟩
    obtain ⟨item, there⟩ :=
      Fields.exists_mem_of_mem_keys ((keys entry.1).mpr (Fields.mem_keys member))
    have alike := ih entry.1
    rw [Fields.lookup_of_mem distinct there, Fields.lookup_of_mem distinct' member] at alike
    exact alike (everywhere.field there)
  | _ => exact (throughout_scalar_iff rfl).mpr everywhere.here

/-- Equal values are without lone scalars together. -/
theorem throughout_isLone (same : value.Equates among value')
    (everywhere : value.Throughout (fun part => part.isLone = false)) :
    value'.Throughout (fun part => part.isLone = false) := by
  have kinds : (fun part : Value => part.isLone = false) = fun part =>
      part.kind ≠ .boolean ∧ part.kind ≠ .number ∧ part.kind ≠ .string := by
    funext part
    cases part <;> simp [isLone, kind]
  rw [kinds] at everywhere ⊢
  exact throughout_kind (fun kind => kind ≠ .boolean ∧ kind ≠ .number ∧ kind ≠ .string) same
    everywhere

/-- Tags that are empty everywhere are equal. -/
theorem of_untagged (same : value.Equates among value')
    (untagged : value.Throughout (fun part => part.tags = []))
    (untagged' : value'.Throughout (fun part => part.tags = [])) : value.Equates Eq value' := by
  induction same with
  | undefined => exact .undefined
  | null => exact .null
  | bool value => exact .bool value
  | number same => exact .number same
  | string value => exact .string value
  | array tagged lengths each ih =>
    refine .array (untagged.here.trans untagged'.here.symm) lengths (fun index inside inside' => ?_)
    exact ih index inside inside' (untagged.item (List.getElem_mem inside))
      (untagged'.item (List.getElem_mem inside'))
  | @object _ _ fields fields' _ _ tagged distinct distinct' keys each ih =>
    refine .object (untagged.here.trans untagged'.here.symm) distinct distinct' keys (fun key => ?_)
    have field : ∀ {content : Identity} {fields : Fields Value} {tags : Tags},
        (Value.object content fields tags).Throughout (fun part => part.tags = []) →
        (fields.lookup key).Throughout (fun part => part.tags = []) := by
      intro content fields tags everywhere
      cases there : (fields.lookup key).isUndefined with
      | true =>
        rw [eq_undefined there]
        exact throughout_undefined_iff.mpr rfl
      | false => exact everywhere.field (Fields.mem_of_lookup there)
    exact ih key (field untagged) (field untagged')

end Equates

/-! ## Equality says that the data is the same -/

/-- Equal items are equal one by one. -/
theorem forall₂_of_eqItems {items items' : List Value} (same : eqItems items items' = true) :
    List.Forall₂ (fun item item' => item.eq item' = true) items items' := by
  induction items generalizing items' with
  | nil =>
    cases items' with
    | nil => exact .nil
    | cons => simp [eqItems] at same
  | cons item rest ih =>
    cases items' with
    | nil => simp [eqItems] at same
    | cons item' rest' =>
      rw [eqItems, Bool.and_eq_true] at same
      exact .cons same.1 (ih same.2)

/-- Fields that are covered have equal ones under their keys. -/
theorem get?_of_eqFields {fields others : Fields Value} (same : eqFields fields others = true)
    {key : String} {item : Value} (member : (key, item) ∈ fields) :
    ∃ other, others.get? key = some other ∧ item.eq other = true := by
  induction fields with
  | nil => cases member
  | cons entry rest ih =>
    rw [eqFields, Bool.and_eq_true] at same
    rcases List.mem_cons.mp member with rfl | later
    · have first := same.1
      split at first
      · next other found => exact ⟨other, found, first⟩
      · cases first
    · exact ih same.2 later

/-- Equal values with distinct keys have the same data. -/
theorem equates_of_eq {value value' : Value} (keyed : value.Throughout Keyed)
    (keyed' : value'.Throughout Keyed) (same : value.eq value' = true) :
    value.Equates (fun _ _ => True) value' := by
  induction value using contents_induction generalizing value' with
  | step value ih =>
  cases value with
  | array content items tags =>
    cases value' with
    | array content' items' tags' =>
      rw [Value.eq] at same
      obtain ⟨lengths, each⟩ := List.forall₂_iff_get.mp (forall₂_of_eqItems same)
      refine .array trivial lengths (fun index inside inside' => ?_)
      have member := List.getElem_mem inside
      exact ih items[index] member (keyed.item member)
        (keyed'.item (List.getElem_mem inside')) (each index inside inside')
    | _ => simp [Value.eq] at same
  | object content fields tags =>
    cases value' with
    | object content' fields' tags' =>
      rw [Value.eq, Bool.and_eq_true, beq_iff_eq] at same
      have distinct : Fields.Distinct fields := keyed.here
      have distinct' : Fields.Distinct fields' := keyed'.here
      have known : Fields.keys fields ⊆ Fields.keys fields' := by
        intro key member
        obtain ⟨item, inside⟩ := Fields.exists_mem_of_mem_keys member
        obtain ⟨other, found, _⟩ := get?_of_eqFields same.2 inside
        exact Fields.mem_keys (Fields.mem_of_get? found)
      -- distinct keys among as many distinct keys are all of them
      have order : (Fields.keys fields).Perm (Fields.keys fields') := by
        apply (List.subperm_of_subset distinct known).perm_of_length_le
        simp only [Fields.keys, List.length_map, same.1, Nat.le_refl]
      refine .object trivial distinct distinct' (fun key => order.mem_iff) (fun key => ?_)
      cases held : Fields.get? key fields with
      | none =>
        have absent : key ∉ Fields.keys fields' := by
          rw [← order.mem_iff]
          exact Fields.get?_eq_none_iff.mp held
        rw [Fields.lookup, Fields.lookup, held, Fields.get?_eq_none_iff.mpr absent]
        exact .undefined
      | some item =>
        have inside := Fields.mem_of_get? held
        obtain ⟨other, found, equal⟩ := get?_of_eqFields same.2 inside
        rw [Fields.lookup, Fields.lookup, held, found]
        exact ih item (List.mem_map_of_mem inside) (keyed.field inside)
          (keyed'.field (Fields.mem_of_get? found)) equal
    | _ => simp [Value.eq] at same
  | undefined => cases value' <;> simp [Value.eq] at same; exact .undefined
  | null => cases value' <;> simp [Value.eq] at same; exact .null
  | bool value => cases value' <;> simp [Value.eq] at same; subst same; exact .bool _
  | number value => cases value' <;> simp [Value.eq] at same; exact .number same
  | string value => cases value' <;> simp [Value.eq] at same; subst same; exact .string _

/-- Equality compares alike what has the same data. -/
theorem Equates.eq_congr {among : Tags → Tags → Prop} {value value' other other' : Value}
    (same : value.Equates among value') (others : other.Equates among other') :
    value.eq other = value'.eq other' := by
  have equal : ∀ {first second first' second' : Value},
      first.Equates (fun _ _ => True) first' → second.Equates (fun _ _ => True) second' →
      first.eq second = true → first'.eq second' = true := by
    intro first second first' second' left right equal
    have between := equates_of_eq left.keyed right.keyed equal
    have back := left.symm (fun _ _ _ => trivial)
    exact ((back.trans (fun _ _ _ _ _ => trivial) between).trans
      (fun _ _ _ _ _ => trivial) right).eq
  have forth := same.imp (fun _ _ => True) (fun _ _ _ => trivial)
  have forth' := others.imp (fun _ _ => True) (fun _ _ _ => trivial)
  rw [Bool.eq_iff_iff]
  constructor
  · exact equal forth forth'
  · exact equal (forth.symm (fun _ _ _ => trivial)) (forth'.symm (fun _ _ _ => trivial))

/-! ## Equal values under equal tags -/

/-- The parts one step down share that tags are alike. -/
theorem TaggedAlike.child {value value' part part' : Value} (tagged : value.TaggedAlike value')
    (position : Position) (held : value.child? position = some part)
    (held' : value'.child? position = some part') : part.TaggedAlike part' := by
  intro place inner inner' found found'
  apply tagged (position :: place)
  · rw [at?, held]
    exact found
  · rw [at?, held']
    exact found'

/-- Values with the same data and the same tags carry the same tags everywhere. -/
theorem Equates.taggedAlike {value value' : Value} (same : value.Equates Eq value') :
    value.TaggedAlike value' := by
  intro place part part' found found'
  induction place generalizing value value' with
  | nil =>
    cases found
    cases found'
    cases same with
    | array tagged => exact congrArg some tagged
    | object tagged => exact congrArg some tagged
    | _ => rfl
  | cons position rest ih =>
    rw [at?] at found found'
    obtain ⟨child, held, inner⟩ := Option.bind_eq_some_iff.mp found
    obtain ⟨child', held', inner'⟩ := Option.bind_eq_some_iff.mp found'
    refine ih ?_ inner inner'
    cases same with
    | array tagged lengths each =>
      cases position with
      | key key => cases held
      | index index =>
        obtain ⟨inside, rfl⟩ := List.getElem?_eq_some_iff.mp held
        obtain ⟨inside', rfl⟩ := List.getElem?_eq_some_iff.mp held'
        exact each index inside inside'
    | object tagged distinct distinct' keys each =>
      cases position with
      | index index => cases held
      | key key =>
        have alike := each key
        rwa [Fields.lookup, Fields.lookup, show Fields.get? key _ = some child from held,
          show Fields.get? key _ = some child' from held'] at alike
    | _ => cases position <;> cases held

/-- Values with the same data that carry the same tags everywhere. -/
theorem equates_of_taggedAlike {value value' : Value}
    (same : value.Equates (fun _ _ => True) value') (tagged : value.TaggedAlike value') :
    value.Equates Eq value' := by
  induction same with
  | undefined => exact .undefined
  | null => exact .null
  | bool value => exact .bool value
  | number same => exact .number same
  | string value => exact .string value
  | @array _ _ items items' _ _ _ lengths each ih =>
    refine .array (Option.some.inj (tagged [] _ _ rfl rfl)) lengths (fun index inside inside' => ?_)
    exact ih index inside inside' (tagged.child (.index index)
      (List.getElem?_eq_getElem inside) (List.getElem?_eq_getElem inside'))
  | @object _ _ fields fields' _ _ _ distinct distinct' keys each ih =>
    refine .object (Option.some.inj (tagged [] _ _ rfl rfl)) distinct distinct' keys (fun key => ?_)
    cases held : Fields.get? key fields with
    | none =>
      have absent : key ∉ Fields.keys fields' := by
        rw [← keys]
        exact Fields.get?_eq_none_iff.mp held
      rw [Fields.lookup, Fields.lookup, held, Fields.get?_eq_none_iff.mpr absent]
      exact .undefined
    | some item =>
      have member := Fields.mem_keys (Fields.mem_of_get? held)
      obtain ⟨item', held'⟩ := Fields.exists_get?_of_mem_keys ((keys key).mp member)
      apply ih key
      rw [Fields.lookup, Fields.lookup, held, held']
      exact tagged.child (.key key) held held'

/-- To have the same data and tags is to be equal and to carry the same tags everywhere. -/
theorem equates_eq_iff {value value' : Value} (keyed : value.Throughout Keyed)
    (keyed' : value'.Throughout Keyed) :
    value.Equates Eq value' ↔ value.eq value' = true ∧ value.TaggedAlike value' := by
  constructor
  · exact fun same => ⟨same.eq, same.taggedAlike⟩
  · rintro ⟨equal, tagged⟩
    exact equates_of_taggedAlike (equates_of_eq keyed keyed' equal) tagged

/-- Equal values without tags are tagged alike. -/
theorem taggedAlike_of_untagged {value value' : Value} (keyed : value.Throughout Keyed)
    (keyed' : value'.Throughout Keyed) (equal : value.eq value' = true)
    (untagged : value.Throughout (fun part => part.tags = []))
    (untagged' : value'.Throughout (fun part => part.tags = [])) : value.TaggedAlike value' :=
  ((equates_of_eq keyed keyed' equal).of_untagged untagged untagged').taggedAlike

end Value

end Conform
