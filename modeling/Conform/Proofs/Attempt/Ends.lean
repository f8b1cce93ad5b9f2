import Conform.Proofs.Attempt.Leaves
import Conform.Proofs.Attempt.Step
import Conform.Proofs.Value.Contents

/-!
# Attempts end

A judgement goes down in two ways: along facets, where the value stays, and into contents,
where the value nests less. When chains of facets end, every attempt ends with a verdict
once it may nest enough calls, and how many are enough depends on the schema and on the
nesting of the value alone.

Intersections hand on what their components answered, so this also needs that no answer
nests more than the value. An array that takes a lone scalar for its only item breaks both:
the items judge the very scalar, and the answer is an array. Where this can happen, arrays
do not count, and the chains that have to end pass through their items.

Where some names are not bound, attempts end with a verdict or at such a name.
-/

namespace Conform

/-- The computation has a result, unless it stops for one of the reasons. -/
def EndsUnless (reasons : Stop → Prop) {α : Type} : Except Stop α → Prop
  | .ok _ => True
  | .error stop => reasons stop

/-- The computation has a result. -/
def Ends {α : Type} (computation : Except Stop α) : Prop :=
  ∃ result, computation = .ok result

section

variable {reasons : Stop → Prop} {α : Type} {computation : Except Stop α}

/-- A result has ended. -/
theorem EndsUnless.ok (result : α) : EndsUnless reasons (.ok result) :=
  trivial

/-- A computation that stops where another stopped does so for the same reason. -/
theorem EndsUnless.stopped {β : Type} {stop : Stop}
    (ends : EndsUnless reasons computation) (stopped : computation = .error stop) :
    EndsUnless reasons (.error stop : Except Stop β) := by
  rw [stopped] at ends
  exact ends

/-- Reasons that never hold leave a result. -/
theorem EndsUnless.ends (ended : EndsUnless reasons computation)
    (never : ∀ stop, ¬ reasons stop) : Ends computation := by
  cases computation with
  | ok result => exact ⟨result, rfl⟩
  | error stop => exact absurd ended (never stop)

/-- What has a result ends for whatever reasons. -/
theorem Ends.endsUnless (ends : Ends computation) : EndsUnless reasons computation := by
  obtain ⟨result, rfl⟩ := ends
  exact .ok result

end

namespace Validator

variable {reasons : Stop → Prop}

/-! ## Checks end when those of the parts do -/

/-- A check of items ends when that of each item does. -/
theorem checkItems_endsUnless {check : Nat → Value → Attempt} {items : List Value}
    (each : ∀ index, ∀ item ∈ items, EndsUnless reasons (check index item)) (index : Nat) :
    EndsUnless reasons (checkItems check index items) := by
  induction items generalizing index with
  | nil => exact .ok _
  | cons item rest ih =>
    have first := each index item (.head _)
    have others :=
      ih (fun index other member => each index other (.tail _ member)) (index + 1)
    rw [checkItems]
    split
    · next stop stopped => exact first.stopped stopped
    · exact .ok _
    · split
      · next stop stopped => exact others.stopped stopped
      · exact .ok _
      · exact .ok _

/-- A check of an array ends when that of each item does. -/
theorem checkArray_endsUnless {check : Nat → Value → Attempt} {options : Options} {value : Value}
    (each : ∀ items, itemsOf? options value = some items →
      ∀ index, ∀ item ∈ items, EndsUnless reasons (check index item))
    (least most : Option Nat) (tag : Option Schema) (place : Identity) :
    EndsUnless reasons (checkArray check least most tag options place value) := by
  unfold checkArray
  split
  · exact .ok _
  · next items found =>
    split
    · exact .ok _
    · have checked := checkItems_endsUnless (each items found) 0
      split
      · next stop stopped => exact checked.stopped stopped
      · exact .ok _
      · exact .ok _

section

variable {check : Nat → Validator → Value → Attempt}

/-- The check of properties ends when that of each property that is there does. -/
theorem checkProperties_endsUnless {wire : Bool} {properties : List (Property Validator)}
    {fields : Fields Value}
    (each : ∀ index, ∀ property ∈ properties,
      (fields.lookup (readKey wire property)).isUndefined = false →
      EndsUnless reasons (check index property.body (fields.lookup (readKey wire property))))
    (order : List Nat) (answers : Fields Value) :
    EndsUnless reasons (checkProperties check wire properties fields order answers) := by
  induction order generalizing answers with
  | nil => exact .ok _
  | cons index rest ih =>
    rw [checkProperties]
    split
    · exact ih answers
    · next property found =>
      simp only
      split
      · split
        · exact .ok _
        · exact ih answers
      · next present =>
        have judged := each index property (List.mem_of_getElem? found)
          (Bool.eq_false_iff.mpr present)
        rw [Fields.lookup] at judged
        split
        · next stop stopped => exact judged.stopped stopped
        · exact .ok _
        · exact ih _

/-- The check of extra fields ends when that of each field that is not skipped does. -/
theorem checkExtras_endsUnless {additional : Additional Validator} {fields : Fields Value}
    (skip : String → Bool)
    (each : ∀ index, ∀ body ∈ additional.bodies, ∀ entry ∈ fields, skip entry.1 = false →
      entry.2.isUndefined = false → EndsUnless reasons (check index body entry.2))
    (drop : Bool) (index : Nat) :
    EndsUnless reasons (checkExtras check drop skip additional index fields) := by
  induction fields generalizing index with
  | nil => exact .ok _
  | cons entry rest ih =>
    obtain ⟨key, value⟩ := entry
    have others :=
      ih (fun index body inside other member => each index body inside other (.tail _ member))
        (index + 1)
    simp only [checkExtras]
    split
    · exact others
    · next kept =>
      simp only [Bool.or_eq_true, not_or, Bool.not_eq_true] at kept
      cases additional with
      | keep =>
        simp only
        split
        · next stop stopped => exact others.stopped stopped
        · exact .ok _
        · exact .ok _
      | deny =>
        simp only
        split
        · exact others
        · exact .ok _
      | each body =>
        have judged := each index body (List.mem_singleton.mpr rfl) _ (.head _) kept.1 kept.2
        simp only
        split
        · next stop stopped => exact judged.stopped stopped
        · exact .ok _
        · split
          · next stop stopped => exact others.stopped stopped
          · exact .ok _
          · exact .ok _

/-- The check of an object ends when those of its properties and of its other fields do. -/
theorem checkObject_endsUnless {checkExtra : Nat → Validator → Value → Attempt}
    {properties : List (Property Validator)} {order : List Nat}
    {additional : Additional Validator} {tag : Schema} {options : Options} {value : Value}
    (all : ∀ index, index ∈ order ↔ index < properties.length)
    (eachProperty : ∀ content (fields : Fields Value) tags,
      value = .object content fields tags → ∀ index, ∀ property ∈ properties,
      let key := readKey (options.convertFromNetwork && !tags.has tag) property
      (fields.lookup key).isUndefined = false →
        EndsUnless reasons (check index property.body (fields.lookup key)))
    (eachExtra : ∀ content (fields : Fields Value) tags,
      value = .object content fields tags → ∀ index, ∀ body ∈ additional.bodies,
      ∀ entry ∈ otherFields (options.convertFromNetwork && !tags.has tag) properties fields,
        EndsUnless reasons (checkExtra index body entry.2))
    (place : Identity) :
    EndsUnless reasons
      (checkObject check checkExtra properties order additional tag options place value) := by
  cases value with
  | object content fields tags =>
    simp only [checkObject]
    split
    · exact .ok _
    · have declared := checkProperties_endsUnless (eachProperty content fields tags rfl) order []
      split
      · next stop stopped => exact declared.stopped stopped
      · exact .ok _
      · have others := checkExtras_endsUnless
          (isDeclaredKey (options.convertFromNetwork && !tags.has tag) properties order)
          (fun index body inside entry member untaken there =>
            eachExtra content fields tags rfl index body inside entry (mem_otherFields.mpr
              ⟨member, isDeclaredKey_eq_isTaken all entry.1 ▸ untaken, there⟩))
          (options.unknownField = .drop) 0
        split
        · next stop stopped => exact others.stopped stopped
        · exact .ok _
        · exact .ok _
  | _ => exact .ok _

/-- Components end one after another when a condition on the value makes each end and is
kept by its answer. -/
theorem checkComponents_endsUnless {small : Value → Prop} {components : List Validator}
    (each : ∀ position, ∀ component ∈ components, ∀ item, small item →
      EndsUnless reasons (check position component item) ∧
        ∀ answer, check position component item = .ok (.accepted answer) → small answer)
    (position : Nat) {value : Value} (start : small value) (tags : Tags) :
    EndsUnless reasons (checkComponents check position components value tags) := by
  induction components generalizing position value tags with
  | nil => exact .ok _
  | cons component rest ih =>
    obtain ⟨judged, kept⟩ := each position component (.head _) value start
    rw [checkComponents]
    split
    · next stop stopped => exact judged.stopped stopped
    · next answer accepted =>
      exact ih (fun position other member => each position other (.tail _ member)) (position + 1)
        (kept answer accepted) _
    · exact .ok _

end

section

/-- A trial of options ends when the check of each option does. -/
theorem tryOptions_endsUnless {check : Nat → Validator → Attempt} {options : List Validator}
    (each : ∀ position, ∀ option ∈ options, EndsUnless reasons (check position option))
    (value : Value) (position : Nat) :
    EndsUnless reasons (tryOptions check value position options) := by
  induction options generalizing position with
  | nil => exact .ok _
  | cons option rest ih =>
    have judged := each position option (.head _)
    have others :=
      ih (fun position other member => each position other (.tail _ member)) (position + 1)
    rw [tryOptions]
    split
    · next stop stopped => exact judged.stopped stopped
    · split
      · next stop stopped => exact others.stopped stopped
      · split
        · split <;> exact .ok _
        · exact .ok _

/-- A union without a discriminator ends when the check of each option does. -/
theorem checkOneOf_endsUnless {check : Nat → Validator → Attempt} {options : List Validator}
    (each : ∀ position, ∀ option ∈ options, EndsUnless reasons (check position option))
    (value : Value) : EndsUnless reasons (checkOneOf check options value) := by
  have tried := tryOptions_endsUnless each value 1
  rw [checkOneOf]
  split
  · next stop stopped => exact tried.stopped stopped
  · exact .ok _

/-- A union without a discriminator ends for certain when the check of each option does. -/
theorem checkOneOf_ends {check : Nat → Validator → Attempt} {options : List Validator}
    (each : ∀ position, ∀ option ∈ options, Ends (check position option)) (value : Value) :
    Ends (checkOneOf check options value) :=
  (checkOneOf_endsUnless (fun position option member => (each position option member).endsUnless)
    value).ends (fun _ => id)

/-- A dispatch ends when the check of each choice does, and that of the options left aside. -/
theorem checkDispatch_endsUnless {check : Validator → Attempt} {discriminator : Discriminator}
    {choices : List Validator} (each : ∀ choice ∈ choices, EndsUnless reasons (check choice))
    (aside : EndsUnless reasons (check (.oneOf (undecided discriminator choices))))
    (variants : List Schema) (options : Options) (value : Value) :
    EndsUnless reasons (checkDispatch check discriminator variants choices options value) := by
  unfold checkDispatch
  split
  · simp only
    split
    · next choice chosen => exact each choice (Discriminator.mem_of_chosen? chosen)
    · split
      · exact .ok _
      · exact aside
  · split
    · exact .ok _
    · exact aside

end

end Validator

/-! ## What counts as a step down -/

namespace Schema

/-- The chains that have to end: through the items of arrays too, where arrays do not count. -/
def Hands (definitions : Definitions) : Bool → Schema → Schema → Prop
  | true => Facet definitions
  | false => Clings definitions

variable {definitions : Definitions} {arrays : Bool} {inner outer : Schema}

/-- What a schema hands a value on to is a part of it. -/
theorem Hands.part (hands : Hands definitions arrays inner outer) :
    inner ∈ outer.parts definitions := by
  cases arrays with
  | true => exact Facet.part hands
  | false => exact Clings.part hands

/-- A schema hands the value that it judges on to its facets. -/
theorem Facet.hands (facet : Facet definitions inner outer) :
    Hands definitions arrays inner outer := by
  cases arrays with
  | true => exact facet
  | false => exact facet.clings

end Schema

/-- No scalar in the value is taken for an array. -/
def Options.Unwrapped (options : Options) (value : Value) : Prop :=
  options.allowConvertForArrayType = true → value.Throughout (fun part => part.isLone = false)

/-- What an array takes for its items is its items, or the lone scalar itself. -/
theorem Validator.itemsOf?_cases {options : Options} {value : Value} {items : List Value}
    (found : itemsOf? options value = some items) :
    (∃ content tags, value = .array content items tags) ∨
      (¬ options.Unwrapped value ∧ items = [value]) := by
  unfold itemsOf? at found
  split at found
  · obtain rfl := Option.some.inj found
    exact .inl ⟨_, _, rfl⟩
  case h_5 => cases found
  all_goals
    split at found
    · next taken =>
      obtain rfl := Option.some.inj found
      exact .inr ⟨fun unwrapped => Bool.noConfusion (unwrapped taken).here, rfl⟩
    · cases found

namespace Options.Unwrapped

variable {options : Options} {value part : Value}

/-- Where no lone scalar is taken for an array, none is in the parts. -/
theorem content (unwrapped : options.Unwrapped value) (member : part ∈ value.contents) :
    options.Unwrapped part :=
  fun taken => (unwrapped taken).content member

/-- No lone scalar is taken for an array in a container when that is so in its parts. -/
theorem of_contents (container : value.isLone = false)
    (contents : ∀ part ∈ value.contents, options.Unwrapped part) : options.Unwrapped value :=
  fun taken => Value.throughout_iff.mpr ⟨container, fun part member => contents part member taken⟩

/-- Tags make no scalar lone. -/
theorem withTags {schemas : List Schema} (unwrapped : options.Unwrapped value) :
    options.Unwrapped (value.withTags schemas) := by
  intro taken
  refine (unwrapped taken).withTags ?_
  have here := (unwrapped taken).here
  cases value <;> exact here

end Options.Unwrapped

namespace Context

variable {context : Context} {schema : Schema} {arrays : Bool}

/-! ## Answers nest no more -/

/-- A leaf answers other values than lone scalars as they came. -/
theorem leaf_answer_of_not_lone (leaf : schema.isLeaf = true)
    (known : schema.KnownFormats context.format) {value answer : Value}
    (judged : context.Judges schema value (.accepted answer)) (other : value.isLone = false) :
    answer = value := by
  have ended := leaf_settled leaf known judged 0 (.run 0)
  cases schema with
  | unknown => exact (Verdict.accepted.inj (Except.ok.inj ended)).symm
  | void =>
    cases value <;> cases ended
    rfl
  | null =>
    cases value <;> cases ended
    rfl
  | boolean node rules => cases value <;> first | cases ended | cases other
  | integer node rules => cases value <;> first | cases ended | cases other
  | number node rules => cases value <;> first | cases ended | cases other
  | string node rules => cases value <;> first | cases ended | cases other
  | _ => cases leaf

/-- Where arrays count, no scalar of the value may be taken for one. -/
def Admits (context : Context) (arrays : Bool) (value : Value) : Prop :=
  arrays = true → context.settings.Unwrapped value

/-- What an array takes for its items is admitted with the value and leaves room for the
array. -/
theorem Admits.items {value : Value} {items : List Value} (admitted : context.Admits arrays value)
    (found : Validator.itemsOf? context.settings value = some items) :
    ∃ most, most + arrays.toNat ≤ value.nesting arrays ∧
      ∀ item ∈ items, context.Admits arrays item ∧ item.nesting arrays ≤ most := by
  rcases Validator.itemsOf?_cases found with ⟨content, tags, rfl⟩ | ⟨wrapped, rfl⟩
  · exact ⟨Value.nestingOfItems arrays items, Nat.le_refl _, fun item member =>
      ⟨fun counted => (admitted counted).content member,
        (Value.nestingOfItems_le_iff arrays items _).mp (Nat.le_refl _) item member⟩⟩
  · cases arrays with
    | true => exact absurd (admitted rfl) wrapped
    | false =>
      refine ⟨value.nesting false, Nat.le_refl _, fun item member => ?_⟩
      obtain rfl := List.mem_singleton.mp member
      exact ⟨admitted, Nat.le_refl _⟩

/-- An answer is admitted with the value, and nests no more. -/
theorem answer_nesting_le {supply : context.Supply} (sound : context.Sound schema)
    {value answer : Value} (judged : supply.Judges schema value (.accepted answer)) :
    context.Admits arrays value →
      context.Admits arrays answer ∧ answer.nesting arrays ≤ value.nesting arrays := by
  refine Supply.accepted_induction (motive := fun _ value answer => context.Admits arrays value →
    context.Admits arrays answer ∧ answer.nesting arrays ≤ value.nesting arrays)
    ?_ sound sound judged
  intro schema value answer sound step admitted
  cases step with
  | leaf leaf judged =>
    rcases leaf_answer leaf sound.here.knownFormats judged with rfl | ⟨scalar, _⟩
    · exact ⟨admitted, Nat.le_refl _⟩
    · refine ⟨fun counted taken => ?_, ?_⟩
      · obtain rfl := leaf_answer_of_not_lone leaf sound.here.knownFormats judged
          (admitted counted taken).here
        exact admitted counted taken
      · rw [Value.nesting_eq_zero arrays scalar]
        exact Nat.zero_le _
  | @items node items least most list answers place shape found count judged =>
    obtain ⟨most, room, inner⟩ := admitted.items found
    have each : ∀ answer ∈ answers,
        context.Admits arrays answer ∧ answer.nesting arrays ≤ most := by
      intro answer member
      obtain ⟨item, held, _, _, shallow⟩ := forall₂_mem_right judged member
      obtain ⟨fine, small⟩ := shallow answer rfl (inner item held).1
      exact ⟨fine, Nat.le_trans small (inner item held).2⟩
    refine ⟨fun counted => .of_contents rfl fun answer member => (each answer member).1 counted, ?_⟩
    have bounded := (Value.nestingOfItems_le_iff arrays answers most).mpr
      (fun answer member => (each answer member).2)
    exact Nat.le_trans (Nat.add_le_add_right bounded _) room
  | @fields node properties additional content fields answers tags place shape object judged =>
    subst object
    have held : ∀ entry ∈ fields, context.Admits arrays entry.2 ∧
        entry.2.nesting arrays ≤ Value.nestingOfFields arrays fields :=
      fun entry member => ⟨fun counted => (admitted counted).content (List.mem_map_of_mem member),
        (Value.nestingOfFields_le_iff arrays fields _).mp (Nat.le_refl _) entry member⟩
    have each : ∀ entry ∈ answers, context.Admits arrays entry.2 ∧
        entry.2.nesting arrays ≤ Value.nestingOfFields arrays fields := by
      intro entry member
      obtain ⟨property, _, _, present, _, _, shallow⟩ | ⟨value, inside, ⟨_, rfl⟩ |
        ⟨body, _, _, _, shallow⟩⟩ := judged.origin member
      · obtain ⟨fine, small⟩ := held _ (Fields.mem_of_lookup present)
        exact (shallow _ rfl fine).imp_right (Nat.le_trans · small)
      · exact held _ (List.mem_of_mem_filter inside)
      · obtain ⟨fine, small⟩ := held _ (List.mem_of_mem_filter inside)
        exact (shallow _ rfl fine).imp_right (Nat.le_trans · small)
    refine ⟨fun counted => .of_contents rfl fun part member => ?_, Nat.succ_le_succ
      ((Value.nestingOfFields_le_iff arrays answers _).mpr
        fun entry member => (each entry member).2)⟩
    obtain ⟨entry, inside, rfl⟩ := List.mem_map.mp member
    exact (each entry inside).1 counted
  | union shape judged =>
    obtain ⟨choice, _, _, _, shallow⟩ := judged.accepted
    exact shallow answer rfl admitted
  | intersection shape judged =>
    obtain ⟨last, tags, ⟨fine, small⟩, rfl⟩ := judged.accepted
      (⟨admitted, Nat.le_refl (value.nesting arrays)⟩ :
        context.Admits arrays value ∧ value.nesting arrays ≤ value.nesting arrays)
      (fun component _ item answer kept judged =>
        (judged.2.2 answer rfl kept.1).imp_right (Nat.le_trans · kept.2))
    refine ⟨fun counted => (fine counted).withTags, ?_⟩
    rw [Value.nesting_withTags]
    exact small
  | @named ref inner verdict shape other judged tagged =>
    obtain ⟨first, rfl, rfl⟩ := accepted_of_map tagged
    obtain ⟨fine, small⟩ := judged.2.2 first rfl admitted
    refine ⟨fun counted => (fine counted).withTags, ?_⟩
    rw [Value.nesting_withTags]
    exact small

/-! ## Enough fuel -/

/-- The run stopped at a name that the supply answers for and that is not bound. -/
def Supply.Lacks (supply : context.Supply) (stop : Stop) : Prop :=
  ∃ ref, stop = .unbound ref ∧ supply.names ref ∧ supply.surroundings.bound ref = none

/-- With some fuel on, every attempt at an admitted value ends, unless it lacks a name: in all
surroundings, whenever the validator was made, and whichever tag a container gives. -/
def SettlesOn (context : Context) (admitted : Value → Prop) (schema : Schema) : Prop :=
  ∃ bound, ∀ fuel, bound ≤ fuel → ∀ (supply : context.Supply) earlier,
    supply.Made earlier schema → ∀ tag place value, admitted value →
      EndsUnless supply.Lacks (supply.attemptAs earlier tag fuel schema place value)

namespace SettlesOn

variable {admitted inner : Value → Prop} {node : Nat}

/-- A schema that settles on values settles on fewer. -/
theorem imp (settles : context.SettlesOn admitted schema)
    (weaker : ∀ value, inner value → admitted value) : context.SettlesOn inner schema := by
  obtain ⟨bound, ends⟩ := settles
  exact ⟨bound, fun fuel enough supply earlier made tag place value held =>
    ends fuel enough supply earlier made tag place value (weaker value held)⟩

/-- A schema that settles on values ends all attempts at them from some fuel on. -/
theorem attempt (settles : context.SettlesOn admitted schema) :
    ∃ bound, ∀ fuel, bound ≤ fuel → ∀ (supply : context.Supply) earlier,
      supply.Made earlier schema → ∀ place value, admitted value →
        EndsUnless supply.Lacks (supply.attempt earlier fuel schema place value) := by
  obtain ⟨bound, ends⟩ := settles
  refine ⟨bound, fun fuel enough supply earlier made place value held => ?_⟩
  rw [Supply.attempt_eq_attemptAs]
  exact ends fuel enough supply earlier made schema place value held

/-- Where a schema settles, attempts end, as no name is lacking. -/
theorem ends (settles : context.SettlesOn admitted schema) :
    ∃ bound, ∀ fuel, bound ≤ fuel → ∀ place value, admitted value →
      Ends (context.attempt fuel schema place value) := by
  obtain ⟨bound, ends⟩ := settles.attempt
  refine ⟨bound, fun fuel enough place value held => ?_⟩
  refine (ends fuel enough context.own context.definitions (context.made_own schema) place value
    held).ends ?_
  rintro stop ⟨ref, _, _, unbound⟩
  cases unbound

/-- Values of several kinds are all admitted from one bound on. -/
theorem of_members {α : Type} {holds : α → Value → Prop} (members : List α)
    (each : ∀ member ∈ members, context.SettlesOn (holds member) schema) :
    context.SettlesOn (fun value => ∃ member ∈ members, holds member value) schema := by
  obtain ⟨bound, ends⟩ := exists_common_bound members each
  refine ⟨bound, fun fuel enough supply earlier made tag place value ⟨member, listed, held⟩ => ?_⟩
  exact ends fuel enough member listed supply earlier made tag place value held

/-- A leaf settles on every value. -/
theorem leaf (leaf : schema.isLeaf = true) (known : schema.KnownFormats context.format)
    (admitted : Value → Prop) : context.SettlesOn admitted schema := by
  refine ⟨2, fun fuel enough supply earlier made tag place value _ => ?_⟩
  obtain ⟨less, rfl⟩ := Nat.exists_eq_add_of_le' enough
  have same : supply.attemptAs earlier tag (less + 2) schema place value =
      supply.attempt earlier (less + 2) schema place value := by
    cases schema <;> first | rfl | cases leaf
  obtain ⟨verdict, ended⟩ := leaf_ends leaf known less place value
  rw [same, Supply.attempt_leaf leaf known, ended]
  exact .ok _

/-- An array settles when its items settle on what it takes for items. -/
theorem array {items : Schema} (settles : context.SettlesOn inner items)
    (held : ∀ value list, admitted value → Validator.itemsOf? context.settings value = some list →
      ∀ item ∈ list, inner item) (least most : Option Nat) :
    context.SettlesOn admitted (.array node items least most) := by
  obtain ⟨bound, ends⟩ := settles.attempt
  refine ⟨bound + 1, fun fuel enough supply earlier made tag place value fine => ?_⟩
  obtain ⟨less, rfl, within⟩ := exists_eq_add_of_add_le enough
  rw [Supply.attemptAs_array]
  refine Validator.checkArray_endsUnless (fun list found index item member => ?_) _ _ _ _
  exact ends less within supply earlier (made.content Schema.items_mem_contents) _ item
    (held value list fine found item member)

/-- An object settles when its contents settle on the fields that they judge. -/
theorem object {properties : List (Property Schema)} {additional : Additional Schema}
    {inner : Schema → Value → Prop}
    (settles : ∀ body ∈ (Schema.object node properties additional).contents,
      context.SettlesOn (inner body) body)
    (declared : ∀ content fields tags, admitted (.object content fields tags) → ∀ tag,
      ∀ property ∈ properties,
        let key := Validator.readKey (context.settings.convertFromNetwork && !tags.has tag) property
        (Fields.lookup key fields).isUndefined = false →
          inner property.body (Fields.lookup key fields))
    (others : ∀ content fields tags, admitted (.object content fields tags) → ∀ tag,
      ∀ body ∈ additional.bodies, ∀ entry ∈ Validator.otherFields
        (context.settings.convertFromNetwork && !tags.has tag) properties fields,
        inner body entry.2) :
    context.SettlesOn admitted (.object node properties additional) := by
  obtain ⟨bound, ends⟩ :=
    exists_common_bound _ (fun body member => (settles body member).attempt)
  refine ⟨bound + 1, fun fuel enough supply earlier made tag place value fine => ?_⟩
  obtain ⟨less, rfl, within⟩ := exists_eq_add_of_add_le enough
  rw [Supply.attemptAs_object]
  refine Validator.checkObject_endsUnless
    (fun index => by rw [Property.mem_checkOrder, List.length_map]) ?_ ?_ _
  · rintro content fields tags rfl index property member key present
    obtain ⟨property, listed, rfl⟩ := List.mem_map.mp member
    have inside : property.body ∈ (Schema.object node properties additional).contents :=
      Schema.body_mem_contents listed
    exact ends less within _ inside supply earlier (made.content inside) _ _
      (declared content fields tags fine tag property listed present)
  · rintro content fields tags rfl index body member entry among
    rw [Validator.otherFields_map] at among
    cases additional with
    | each other =>
      obtain rfl := List.mem_singleton.mp member
      have inside : other ∈ (Schema.object node properties (.each other)).contents :=
        Schema.each_mem_contents
      exact ends less within other inside supply earlier (made.content inside) _ _
        (others content fields tags fine tag other (.head _) entry among)
    | keep => cases member
    | deny => cases member

/-- A union settles when its options do. -/
theorem union {choices : List Schema}
    (facets : ∀ choice ∈ choices, context.SettlesOn admitted choice) (node : Nat) :
    context.SettlesOn admitted (.union node choices) := by
  obtain ⟨bound, ends⟩ :=
    exists_common_bound choices (fun choice member => (facets choice member).attempt)
  refine ⟨bound + 2, fun fuel enough supply earlier made tag place value fine => ?_⟩
  obtain ⟨less, rfl, within⟩ := exists_eq_add_of_add_le enough
  have each : ∀ more, less ≤ more → ∀ origin,
      ∀ choice ∈ choices.map (Schema.validator earlier), EndsUnless supply.Lacks
        (Validator.run supply.surroundings more choice context.settings origin value) := by
    intro more fewer origin choice member
    obtain ⟨listed, among, rfl⟩ := List.mem_map.mp member
    exact ends more (Nat.le_trans within fewer) listed among supply earlier
      (made.part (List.mem_append_left _ among)) origin value fine
  change EndsUnless supply.Lacks
    (supply.attempt earlier (less + 2) (.union node choices) place value)
  cases decided : Discriminator.find? earlier choices with
  | none =>
    rw [supply.attempt_union_none _ _ _ _ decided]
    exact Validator.checkOneOf_endsUnless
      (fun position => each (less + 1) (Nat.le_succ less) (place.part position)) value
  | some discriminator =>
    rw [supply.attempt_union_some _ _ _ _ decided]
    refine Validator.checkDispatch_endsUnless (each (less + 1) (Nat.le_succ less) place) ?_ _ _ _
    exact Validator.checkOneOf_endsUnless (fun position choice aside =>
      each less (Nat.le_refl less) (place.part position) choice
        (Discriminator.mem_of_mem_aside aside)) value

/-- An intersection settles when its components do, on their own answers too. -/
theorem intersection {components : List Schema}
    (facets : ∀ component ∈ components, context.SettlesOn admitted component)
    (kept : ∀ component ∈ components, ∀ (supply : context.Supply) item answer, admitted item →
      supply.Judges component item (.accepted answer) → admitted answer) (node : Nat) :
    context.SettlesOn admitted (.intersection node components) := by
  obtain ⟨bound, ends⟩ :=
    exists_common_bound components (fun component member => (facets component member).attempt)
  refine ⟨bound + 1, fun fuel enough supply earlier made tag place value fine => ?_⟩
  obtain ⟨less, rfl, within⟩ := exists_eq_add_of_add_le enough
  change EndsUnless supply.Lacks
    (supply.attempt earlier (less + 1) (.intersection node components) place value)
  rw [Supply.attempt_intersection]
  refine Validator.checkComponents_endsUnless ?_ 1 fine []
  intro position component member item held
  obtain ⟨component, among, rfl⟩ := List.mem_map.mp member
  have there : supply.Made earlier component := made.part (List.mem_append_left _ among)
  exact ⟨ends less within component among supply earlier there _ item held, fun answer accepted =>
    kept component among supply item answer held ⟨earlier, there, less, _, accepted⟩⟩

/-- A name settles when its definition does. -/
theorem named {ref : NamedRef} (definition : context.SettlesOn admitted (context.definitions ref)) :
    context.SettlesOn admitted (.named ref) := by
  obtain ⟨bound, ends⟩ := definition
  refine ⟨bound + 3, fun fuel enough supply earlier made tag place value fine => ?_⟩
  obtain ⟨less, rfl, within⟩ := exists_eq_add_of_add_le enough
  change EndsUnless supply.Lacks (supply.attempt earlier (less + 3) (.named ref) place value)
  have answered := made.within.here ref rfl
  cases binding : supply.surroundings.bound ref with
  | none =>
    rw [supply.attempt_named_unbound _ _ _ _ binding]
    exact ⟨ref, rfl, answered, binding⟩
  | some validator =>
    obtain ⟨moment, among, same, decided, rfl⟩ := supply.bound answered binding
    have there : supply.Made moment (context.definitions ref) :=
      ⟨among, decided, made.within.facet Schema.definition_mem_facets⟩
    cases direct : (context.definitions ref).isContainer with
    | true =>
      rw [supply.attempt_named_container _ _ _ _ binding same direct]
      exact ends (less + 1) (Nat.le_succ_of_le within) supply moment there _ place value fine
    | false =>
      have ended := ends less within supply moment there (context.definitions ref) place value fine
      rw [supply.attempt_named_other _ _ _ _ binding same direct, Supply.attempt_eq_attemptAs]
      split
      · next stop stopped => exact ended.stopped stopped
      · exact .ok _

end SettlesOn

/-- With some fuel on, every attempt at an admitted value of at most this nesting ends,
unless it lacks a name: in all surroundings, whenever the validator was made, and whichever
tag a container gives. -/
def Settles (context : Context) (arrays : Bool) (size : Nat) (schema : Schema) : Prop :=
  ∃ bound, ∀ fuel, bound ≤ fuel → ∀ (supply : context.Supply) earlier,
    supply.Made earlier schema → ∀ tag place value, context.Admits arrays value →
      value.nesting arrays ≤ size →
      EndsUnless supply.Lacks (supply.attemptAs earlier tag fuel schema place value)

/-- To settle at a size is to settle on the values admitted that nest no more. -/
theorem settles_iff {size : Nat} : context.Settles arrays size schema ↔
    context.SettlesOn (fun value => context.Admits arrays value ∧ value.nesting arrays ≤ size)
      schema := by
  simp only [Settles, SettlesOn, and_imp]

/-- A schema that settles at a size ends all attempts at values that nest no more. -/
theorem Settles.attempt {size : Nat} (settles : context.Settles arrays size schema) :
    ∃ bound, ∀ fuel, bound ≤ fuel → ∀ (supply : context.Supply) earlier,
      supply.Made earlier schema → ∀ place value, context.Admits arrays value →
        value.nesting arrays ≤ size →
        EndsUnless supply.Lacks (supply.attempt earlier fuel schema place value) := by
  simpa only [and_imp] using (settles_iff.mp settles).attempt

/-- A schema that settles at the sizes below settles on the values that nest less. -/
theorem settlesOn_below {size : Nat} (each : ∀ less < size, context.Settles arrays less schema) :
    context.SettlesOn (fun value => context.Admits arrays value ∧ value.nesting arrays < size)
      schema := by
  rcases size with _ | less
  · exact ⟨0, fun _ _ _ _ _ _ _ _ small => absurd small.2 (Nat.not_lt_zero _)⟩
  · exact (settles_iff.mp (each less (Nat.lt_succ_self less))).imp
      (fun value small => ⟨small.1, Nat.le_of_lt_succ small.2⟩)

/-- A schema settles at every size where the chains that have to end do. -/
theorem settles_of_chains (arrays : Bool) (sound : context.Sound schema)
    (chains : schema.Throughout context.definitions
      (Acc (Schema.Hands context.definitions arrays))) (size : Nat) :
    context.Settles arrays size schema := by
  refine Schema.chains_induction Schema.Hands.part
    (motive := fun schema size => context.Settles arrays size schema) ?_ sound chains size
  intro schema size sound _ chained smaller
  have contents : ∀ part ∈ schema.contents, context.SettlesOn
      (fun value => context.Admits arrays value ∧ value.nesting arrays < size) part :=
    fun part member => settlesOn_below
      (smaller part (Relation.ReflTransGen.single (List.mem_append_right _ member)))
  have facets : ∀ part ∈ schema.facets context.definitions, context.SettlesOn
      (fun value => context.Admits arrays value ∧ value.nesting arrays ≤ size) part :=
    fun part member => settles_iff.mp (chained part (Schema.Facet.hands member))
  rw [settles_iff]
  cases schema with
  | array node items least most =>
    -- the array leaves room for its items, or the chain goes on with them
    have inner : context.SettlesOn (fun item => context.Admits arrays item ∧
        item.nesting arrays + arrays.toNat ≤ size) items := by
      cases arrays with
      | true => exact contents items Schema.items_mem_contents
      | false => exact settles_iff.mp (chained items (.head _))
    refine inner.array (fun value list fine found item member => ?_) least most
    obtain ⟨most, room, held⟩ := fine.1.items found
    obtain ⟨admitted, fits⟩ := held item member
    exact ⟨admitted, by omega⟩
  | object node properties additional =>
    have held : ∀ content (fields : Fields Value) tags,
        context.Admits arrays (.object content fields tags) ∧
          (Value.object content fields tags).nesting arrays ≤ size → ∀ entry ∈ fields,
        context.Admits arrays entry.2 ∧ entry.2.nesting arrays < size :=
      fun content fields tags fine entry inside =>
        ⟨fun counted => (fine.1 counted).content (List.mem_map_of_mem inside),
          Nat.lt_of_lt_of_le (Value.nesting_field arrays inside) fine.2⟩
    exact SettlesOn.object contents
      (fun content fields tags fine _ _ _ present =>
        held content fields tags fine _ (Fields.mem_of_lookup present))
      (fun content fields tags fine _ _ _ entry among =>
        held content fields tags fine entry (List.mem_of_mem_filter among))
  | union node choices => exact .union facets node
  | intersection node components =>
    -- a component sees the answer of the one before, which nests no more
    refine .intersection facets (fun component member supply item answer fine judged => ?_) node
    obtain ⟨admitted, fewer⟩ := answer_nesting_le (sound.facet member) judged fine.1
    exact ⟨admitted, Nat.le_trans fewer fine.2⟩
  | named ref => exact .named (facets _ Schema.definition_mem_facets)
  | _ => exact .leaf rfl sound.here.knownFormats _

/-- Where a schema settles, attempts end, as no name is lacking. -/
theorem Settles.ends {size : Nat} (settles : context.Settles arrays size schema) :
    ∃ bound, ∀ fuel, bound ≤ fuel → ∀ place value, context.Admits arrays value →
      value.nesting arrays ≤ size → Ends (context.attempt fuel schema place value) := by
  simpa only [and_imp] using (settles_iff.mp settles).ends

/-- Grounded schemas settle at every depth when no lone scalar is taken for an array. -/
theorem settles (lone : context.settings.allowConvertForArrayType = false)
    (sound : context.Sound schema) (grounded : schema.Grounded context.definitions) (depth : Nat) :
    ∃ bound, ∀ fuel, bound ≤ fuel → ∀ place value, value.depth ≤ depth →
      Ends (context.attempt fuel schema place value) := by
  obtain ⟨bound, ends⟩ := (settles_of_chains true sound grounded depth).ends
  refine ⟨bound, fun fuel enough place value shallow => ends fuel enough place value ?_ ?_⟩
  · intro _ taken
    rw [lone] at taken
    cases taken
  · rw [Value.nesting_true]
    exact shallow

/-- A grounded schema judges every value, with one verdict at all attempts from some fuel on. -/
theorem exists_verdict (lone : context.settings.allowConvertForArrayType = false)
    (sound : context.Sound schema) (grounded : schema.Grounded context.definitions)
    (place : Identity) (value : Value) :
    ∃ bound verdict, ∀ fuel, bound ≤ fuel →
      context.attempt fuel schema place value = .ok verdict := by
  obtain ⟨bound, ends⟩ := settles lone sound grounded value.depth
  obtain ⟨verdict, ended⟩ := ends bound (Nat.le_refl bound) place value (Nat.le_refl _)
  exact ⟨bound, verdict, fun fuel enough => attempt_mono sound enough ended⟩

end Context

end Conform
