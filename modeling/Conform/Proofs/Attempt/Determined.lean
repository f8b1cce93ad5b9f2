import Conform.Proofs.Attempt.Basic
import Conform.Proofs.Discriminator.Choice
import Conform.Proofs.Value.Like

/-!
# Verdicts are determined

A verdict depends on the schema and on the data and the tags of the value. It does not
depend on how many calls an attempt may nest, once they are enough, nor on the place where
the attempt makes new contents, which only the identities in an accepted value show.

One computation follows another when it ends whenever the other does, with a related
result. Each check follows itself when the checks that it is given follow theirs, and so
every attempt follows one with less fuel, at another place, of an alike value.
-/

namespace Conform

/-- When the left computation ends, the right one does, with a related result. -/
def Follows {α β : Type} (related : α → β → Prop) (left : Except Stop α) (right : Except Stop β) :
    Prop :=
  ∀ result, left = .ok result → ∃ result', right = .ok result' ∧ related result result'

/-- Related results, or the same violations. -/
inductive Outcome {α β : Type} (related : α → β → Prop) :
    Except (List Violation) α → Except (List Violation) β → Prop
  | ok {result : α} {result' : β} (same : related result result') :
    Outcome related (.ok result) (.ok result')
  | error (violations : List Violation) : Outcome related (.error violations) (.error violations)

/-- Alike accepted values, or the same violations. -/
inductive Verdict.Like (allowed : Identity → Identity → Prop) : Verdict → Verdict → Prop
  | accepted {answer answer' : Value} (same : answer.Like allowed answer') :
    Verdict.Like allowed (.accepted answer) (.accepted answer')
  | rejected (violations : List Violation) :
    Verdict.Like allowed (.rejected violations) (.rejected violations)

/-- Identical answers, or a refusal in both. -/
inductive Verdict.Agree : Verdict → Verdict → Prop
  | accepted {answer answer' : Value} (same : answer.Identical answer') :
    Agree (.accepted answer) (.accepted answer')
  | rejected (violations violations' : List Violation) :
    Agree (.rejected violations) (.rejected violations')

namespace Follows

variable {α β : Type} {related : α → β → Prop}

/-- A result follows the one that it is related to. -/
theorem ok {result : α} {result' : β} (same : related result result') :
    Follows related (.ok result) (.ok result') := by
  intro found ended
  obtain rfl := Except.ok.inj ended
  exact ⟨result', rfl, same⟩

/-- Every outcome follows an error. -/
theorem error (stop : Stop) (right : Except Stop β) : Follows related (.error stop) right := by
  intro found ended
  cases ended

end Follows

/-- A verdict is like itself. -/
theorem Verdict.Like.refl {allowed : Identity → Identity → Prop}
    (reflexive : ∀ identity, allowed identity identity) (verdict : Verdict) :
    verdict.Like allowed verdict := by
  cases verdict with
  | accepted answer => exact .accepted (Value.Like.refl reflexive answer)
  | rejected violations => exact .rejected violations

/-- Verdicts that differ in no identity are equal. -/
theorem Verdict.eq_of_like {verdict verdict' : Verdict} (alike : verdict.Like Eq verdict') :
    verdict = verdict' := by
  cases alike with
  | accepted same => rw [Value.eq_of_like same]
  | rejected violations => rfl

/-- The same further tags keep verdicts alike. -/
theorem Verdict.Like.map {allowed : Identity → Identity → Prop} {verdict verdict' : Verdict}
    (alike : verdict.Like allowed verdict') (schemas : List Schema) :
    (verdict.map (fun answer => answer.withTags schemas)).Like allowed
      (verdict'.map (fun answer => answer.withTags schemas)) := by
  cases alike with
  | accepted same => exact .accepted (same.withTags schemas)
  | rejected violations => exact .rejected violations

namespace Validator

variable {allowed : Identity → Identity → Prop}

/-! ## Parts of containers -/

section

variable {check check' : Nat → Value → Attempt}

/-- Items that are alike are checked alike. -/
theorem checkItems_follows
    (each : ∀ index item item', Value.Like allowed item item' →
      Follows (Verdict.Like allowed) (check index item) (check' index item'))
    {items items' : List Value} (alike : List.Forall₂ (Value.Like allowed) items items')
    (index : Nat) :
    Follows (Outcome (List.Forall₂ (Value.Like allowed)))
      (checkItems check index items) (checkItems check' index items') := by
  induction alike generalizing index with
  | nil => exact .ok (.ok .nil)
  | @cons item item' rest rest' same _ ih =>
    have first := each index item item' same
    have others := ih (index + 1)
    rw [checkItems, checkItems]
    generalize check index item = left at first ⊢
    generalize check' index item' = right at first ⊢
    generalize checkItems check (index + 1) rest = more at others ⊢
    generalize checkItems check' (index + 1) rest' = more' at others ⊢
    cases left with
    | error stop => exact .error stop _
    | ok verdict =>
      obtain ⟨_, rfl, verdicts⟩ := first verdict rfl
      cases verdicts with
      | rejected violations => exact .ok (.error _)
      | accepted answers =>
        cases more with
        | error stop => exact .error stop _
        | ok outcome =>
          obtain ⟨_, rfl, outcomes⟩ := others outcome rfl
          cases outcomes with
          | error violations => exact .ok (.error _)
          | ok further => exact .ok (.ok (.cons answers further))

/-- Values that are alike have items that are alike, or none. -/
theorem itemsOf?_rel (options : Options) {value value' : Value}
    (alike : value.Like allowed value') :
    Option.Rel (List.Forall₂ (Value.Like allowed)) (itemsOf? options value)
      (itemsOf? options value') := by
  cases alike with
  | undefined => exact .none
  | null => exact .none
  | object tags identities keys each => exact .none
  | array tags identities lengths each =>
    exact .some (List.forall₂_iff_get.mpr ⟨lengths, each⟩)
  | bool value =>
    simp only [itemsOf?]
    split
    · exact .some (.cons (.bool value) .nil)
    · exact .none
  | number value =>
    simp only [itemsOf?]
    split
    · exact .some (.cons (.number value) .nil)
    · exact .none
  | string value =>
    simp only [itemsOf?]
    split
    · exact .some (.cons (.string value) .nil)
    · exact .none

/-- Arrays that are alike are checked alike. -/
theorem checkArray_follows
    (each : ∀ index item item', Value.Like allowed item item' →
      Follows (Verdict.Like allowed) (check index item) (check' index item'))
    (least most : Option Nat) (tag : Option Schema) (options : Options)
    {place place' : Identity} (places : allowed place place') {value value' : Value}
    (alike : value.Like allowed value') :
    Follows (Verdict.Like allowed) (checkArray check least most tag options place value)
      (checkArray check' least most tag options place' value') := by
  have looked := itemsOf?_rel options alike
  simp only [checkArray, alike.kind_eq, alike.tags_eq]
  generalize itemsOf? options value = items at looked ⊢
  generalize itemsOf? options value' = items' at looked ⊢
  cases looked with
  | none => exact .ok (.rejected _)
  | some items =>
    simp only [items.length_eq]
    cases countReason? least most _ with
    | some reason => exact .ok (.rejected _)
    | none =>
      have checked := checkItems_follows each items 0
      generalize checkItems check 0 _ = left at checked ⊢
      generalize checkItems check' 0 _ = right at checked ⊢
      cases left with
      | error stop => exact .error stop _
      | ok outcome =>
        obtain ⟨_, rfl, outcomes⟩ := checked outcome rfl
        cases outcomes with
        | error violations => exact .ok (.rejected _)
        | ok answers =>
          exact .ok (.accepted (Value.like_array_iff.mpr ⟨places, answers, rfl⟩))

end

section

variable {check check' : Nat → Validator → Value → Attempt}

/-- Properties are checked alike on fields that are alike. -/
theorem checkProperties_follows {properties : List (Property Validator)}
    (each : ∀ index, ∀ property ∈ properties, ∀ item item', Value.Like allowed item item' →
      Follows (Verdict.Like allowed) (check index property.body item)
        (check' index property.body item'))
    (wire : Bool) {fields fields' : Fields Value} (alike : fields.Like allowed fields')
    (order : List Nat) {answers answers' : Fields Value} (same : answers.Like allowed answers') :
    Follows (Outcome (Fields.Like allowed))
      (checkProperties check wire properties fields order answers)
      (checkProperties check' wire properties fields' order answers') := by
  induction order generalizing answers answers' with
  | nil => exact .ok (.ok same)
  | cons index rest ih =>
    rw [checkProperties, checkProperties]
    cases found : properties[index]? with
    | none => exact ih same
    | some property =>
      have values := alike.lookup (readKey wire property)
      simp only [values.isUndefined_eq]
      split
      · split
        · exact .ok (.error _)
        · exact ih same
      · have first := each index property (List.mem_of_getElem? found) _ _ values
        generalize check index property.body _ = left at first ⊢
        generalize check' index property.body _ = right at first ⊢
        cases left with
        | error stop => exact .error stop _
        | ok verdict =>
          obtain ⟨_, rfl, verdicts⟩ := first verdict rfl
          cases verdicts with
          | rejected violations => exact .ok (.error _)
          | accepted answer => exact ih (same.insert answer property.name)

/-- Declared fields are alike when the answers are. -/
theorem declaredFields_like (properties : List (Property Validator))
    {answers answers' : Fields Value} (alike : answers.Like allowed answers') :
    Fields.Like allowed (declaredFields properties answers)
      (declaredFields properties answers') := by
  induction properties with
  | nil => exact .nil
  | cons property rest ih =>
    have found := alike.get?_rel property.name
    simp only [declaredFields, List.filterMap_cons] at ih ⊢
    generalize answers.get? property.name = answer at found ⊢
    generalize answers'.get? property.name = answer' at found ⊢
    cases found with
    | none => exact ih
    | some same => exact .cons ⟨rfl, same⟩ ih

/-- Other fields that are alike are checked alike. -/
theorem checkExtras_follows {additional : Additional Validator}
    (each : ∀ index, ∀ body ∈ additional.bodies, ∀ item item', Value.Like allowed item item' →
      Follows (Verdict.Like allowed) (check index body item) (check' index body item'))
    (drop : Bool) (skip : String → Bool) {fields fields' : Fields Value}
    (alike : fields.Like allowed fields') (index : Nat) :
    Follows (Outcome (Fields.Like allowed)) (checkExtras check drop skip additional index fields)
      (checkExtras check' drop skip additional index fields') := by
  induction alike generalizing index with
  | nil => exact .ok (.ok .nil)
  | @cons entry entry' rest rest' head _ ih =>
    obtain ⟨key, value⟩ := entry
    obtain ⟨key', value'⟩ := entry'
    obtain ⟨keys, same⟩ : key = key' ∧ value.Like allowed value' := head
    subst keys
    have others := ih (index + 1)
    simp only [checkExtras, same.isUndefined_eq]
    generalize checkExtras check drop skip additional (index + 1) rest = more at others ⊢
    generalize checkExtras check' drop skip additional (index + 1) rest' = more' at others ⊢
    split
    · exact others
    · cases additional with
      | keep =>
        cases more with
        | error stop => exact .error stop _
        | ok outcome =>
          obtain ⟨_, rfl, outcomes⟩ := others outcome rfl
          cases outcomes with
          | error violations => exact .ok (.error _)
          | ok further => exact .ok (.ok (.cons ⟨rfl, same⟩ further))
      | deny =>
        simp only
        split
        · exact others
        · exact .ok (.error _)
      | each body =>
        have first := each index body (List.mem_singleton.mpr rfl) value value' same
        simp only
        generalize check index body value = left at first ⊢
        generalize check' index body value' = right at first ⊢
        cases left with
        | error stop => exact .error stop _
        | ok verdict =>
          obtain ⟨_, rfl, verdicts⟩ := first verdict rfl
          cases verdicts with
          | rejected violations => exact .ok (.error _)
          | accepted answer =>
            cases more with
            | error stop => exact .error stop _
            | ok outcome =>
              obtain ⟨_, rfl, outcomes⟩ := others outcome rfl
              cases outcomes with
              | error violations => exact .ok (.error _)
              | ok further => exact .ok (.ok (.cons ⟨rfl, answer⟩ further))

/-- The first field of a kind has the same key in alike fields. -/
theorem find?_keys_eq (wanted : String → Bool) {fields fields' : Fields Value}
    (alike : fields.Like allowed fields') :
    (fields.find? (fun entry => wanted entry.1)).map Prod.fst =
      (fields'.find? (fun entry => wanted entry.1)).map Prod.fst := by
  induction alike with
  | nil => rfl
  | cons head _ ih =>
    rw [List.find?_cons, List.find?_cons, head.1]
    split
    · simp [head.1]
    · exact ih

/-- Objects that are alike are checked alike. -/
theorem checkObject_follows {checkExtra checkExtra' : Nat → Validator → Value → Attempt}
    {properties : List (Property Validator)} {additional : Additional Validator}
    (eachProperty : ∀ index, ∀ property ∈ properties, ∀ item item',
      Value.Like allowed item item' → Follows (Verdict.Like allowed)
        (check index property.body item) (check' index property.body item'))
    (eachExtra : ∀ index, ∀ body ∈ additional.bodies, ∀ item item',
      Value.Like allowed item item' → Follows (Verdict.Like allowed)
        (checkExtra index body item) (checkExtra' index body item'))
    (order : List Nat) (tag : Schema) (options : Options)
    {place place' : Identity} (places : allowed place place') {value value' : Value}
    (alike : value.Like allowed value') :
    Follows (Verdict.Like allowed)
      (checkObject check checkExtra properties order additional tag options place value)
      (checkObject check' checkExtra' properties order additional tag options place' value') := by
  cases alike with
  | @object content content' fields fields' tags identities keys each =>
    have alike := Fields.forall₂_of_keys_eq _ keys each
    have forbidden := find?_keys_eq forbiddenKeys.contains alike
    simp only [checkObject]
    generalize fields.find? _ = left at forbidden ⊢
    generalize fields'.find? _ = right at forbidden ⊢
    obtain _ | ⟨key, _⟩ := left <;> obtain _ | ⟨key', _⟩ := right <;>
      simp only [Option.map_none, Option.map_some, reduceCtorEq, Option.some.injEq] at forbidden
    · simp only
      have declared := checkProperties_follows eachProperty
        (options.convertFromNetwork && !tags.has tag) alike order .nil
      generalize checkProperties check _ properties fields order [] = left at declared ⊢
      generalize checkProperties check' _ properties fields' order [] = right at declared ⊢
      cases left with
      | error stop => exact .error stop _
      | ok outcome =>
        obtain ⟨_, rfl, outcomes⟩ := declared outcome rfl
        cases outcomes with
        | error violations => exact .ok (.rejected _)
        | ok answers =>
          have others := checkExtras_follows eachExtra (options.unknownField = .drop)
            (isDeclaredKey (options.convertFromNetwork && !tags.has tag) properties order) alike 0
          simp only
          generalize checkExtras checkExtra _ _ additional 0 fields = left at others ⊢
          generalize checkExtras checkExtra' _ _ additional 0 fields' = right at others ⊢
          cases left with
          | error stop => exact .error stop _
          | ok outcome =>
            obtain ⟨_, rfl, outcomes⟩ := others outcome rfl
            cases outcomes with
            | error violations => exact .ok (.rejected _)
            | ok extras =>
              refine .ok (.accepted (Value.like_object_iff.mpr ⟨places, ?_, rfl⟩))
              exact List.rel_append (declaredFields_like properties answers) extras
    · subst forbidden
      exact .ok (.rejected _)
  | _ => exact .ok (.rejected _)

/-- A value passes through alike components with alike tags. -/
theorem checkComponents_follows {components : List Validator}
    (each : ∀ position, ∀ component ∈ components, ∀ item item', Value.Like allowed item item' →
      Follows (Verdict.Like allowed) (check position component item)
        (check' position component item'))
    (position : Nat) {value value' : Value} (alike : value.Like allowed value') (tags : Tags) :
    Follows (Verdict.Like allowed) (checkComponents check position components value tags)
      (checkComponents check' position components value' tags) := by
  induction components generalizing position value value' tags with
  | nil => exact .ok (.accepted (alike.withTags tags))
  | cons component rest ih =>
    have first := each position component (.head _) value value' alike
    rw [checkComponents, checkComponents]
    generalize check position component value = left at first ⊢
    generalize check' position component value' = right at first ⊢
    cases left with
    | error stop => exact .error stop _
    | ok verdict =>
      obtain ⟨_, rfl, verdicts⟩ := first verdict rfl
      cases verdicts with
      | rejected violations => exact .ok (.rejected _)
      | accepted answer =>
        simp only [answer.tags_eq]
        exact ih (fun position component member => each position component (.tail _ member))
          (position + 1) answer _

end

/-! ## Options -/

section

variable {check check' : Nat → Validator → Attempt}

/-- Counted answers of the same numbers that are alike. -/
abbrev Numbered (allowed : Identity → Identity → Prop) :
    List (Nat × Value) → List (Nat × Value) → Prop :=
  List.Forall₂ (fun entry entry' => entry.1 = entry'.1 ∧ entry.2.Like allowed entry'.2)

/-- The same options found to accept, with alike answers, and the same refusals. -/
structure Trial.Like (allowed : Identity → Identity → Prop) (trial trial' : Trial) : Prop where
  preferred : Numbered allowed trial.preferred trial'.preferred
  matched : Numbered allowed trial.matched trial'.matched
  failures : trial.failures = trial'.failures

/-- Whether an option is preferred does not depend on identities. -/
theorem isPreferred_congr (option : Validator) {value value' answer answer' : Value}
    (alike : value.Like allowed value') (answers : answer.Like allowed answer') :
    isPreferred option value answer = isPreferred option value' answer' := by
  simp only [isPreferred, Value.hasTag, alike.tags_eq, answers.eq_congr alike]

/-- Options are tried alike on values that are alike. -/
theorem tryOptions_follows {options : List Validator} {value value' : Value}
    (each : ∀ position, ∀ option ∈ options,
      Follows (Verdict.Like allowed) (check position option) (check' position option))
    (alike : value.Like allowed value') (position : Nat) :
    Follows (Trial.Like allowed) (tryOptions check value position options)
      (tryOptions check' value' position options) := by
  induction options generalizing position with
  | nil => exact .ok ⟨.nil, .nil, rfl⟩
  | cons option rest ih =>
    have first := each position option (.head _)
    have others := ih (fun position option member => each position option (.tail _ member))
      (position + 1)
    rw [tryOptions, tryOptions]
    generalize check position option = left at first ⊢
    generalize check' position option = right at first ⊢
    generalize tryOptions check value (position + 1) rest = more at others ⊢
    generalize tryOptions check' value' (position + 1) rest = more' at others ⊢
    cases left with
    | error stop => exact .error stop _
    | ok verdict =>
      obtain ⟨_, rfl, verdicts⟩ := first verdict rfl
      cases more with
      | error stop => exact .error stop _
      | ok trial =>
        obtain ⟨_, rfl, trials⟩ := others trial rfl
        cases verdicts with
        | rejected violations =>
          exact .ok ⟨trials.preferred, trials.matched, by rw [trials.failures]⟩
        | accepted answers =>
          simp only [isPreferred_congr option alike answers]
          split
          · exact .ok ⟨.cons ⟨rfl, answers⟩ trials.preferred, trials.matched, trials.failures⟩
          · exact .ok ⟨trials.preferred, .cons ⟨rfl, answers⟩ trials.matched, trials.failures⟩

/-- Alike lists of numbered answers have the same numbers. -/
theorem Numbered.positions_eq {answers answers' : List (Nat × Value)}
    (alike : Numbered allowed answers answers') :
    answers.map Prod.fst = answers'.map Prod.fst := by
  induction alike with
  | nil => rfl
  | cons head _ ih => rw [List.map_cons, List.map_cons, head.1, ih]

/-- Trials that are alike come to verdicts that are alike. -/
theorem Trial.Like.verdict {trial trial' : Trial} (alike : trial.Like allowed trial') :
    trial.verdict.Like allowed trial'.verdict := by
  obtain ⟨preferred, matched, failures⟩ := trial
  obtain ⟨preferred', matched', failures'⟩ := trial'
  obtain ⟨first, second, rfl⟩ := alike
  have positions := first.positions_eq
  have others := second.positions_eq
  simp only at first second positions others
  unfold Trial.verdict
  cases first with
  | cons head tail =>
    cases tail with
    | nil => exact .accepted head.2
    | cons _ _ =>
      simp only [positions]
      exact .rejected _
  | nil =>
    cases second with
    | nil => exact .rejected _
    | cons head tail =>
      cases tail with
      | nil => exact .accepted head.2
      | cons _ _ =>
        simp only [others]
        exact .rejected _

/-- Values that are alike are tried alike. -/
theorem checkOneOf_follows {options : List Validator} {value value' : Value}
    (each : ∀ position, ∀ option ∈ options,
      Follows (Verdict.Like allowed) (check position option) (check' position option))
    (alike : value.Like allowed value') :
    Follows (Verdict.Like allowed) (checkOneOf check options value)
      (checkOneOf check' options value') := by
  have tried := tryOptions_follows each alike 1
  rw [checkOneOf, checkOneOf]
  generalize tryOptions check value 1 options = left at tried ⊢
  generalize tryOptions check' value' 1 options = right at tried ⊢
  cases left with
  | error stop => exact .error stop _
  | ok trial =>
    obtain ⟨_, rfl, trials⟩ := tried trial rfl
    exact .ok trials.verdict

/-- Values that are alike are dispatched alike. -/
theorem checkDispatch_follows {check check' : Validator → Attempt}
    {discriminator : Discriminator} {choices : List Validator}
    (each : ∀ choice ∈ choices, Follows (Verdict.Like allowed) (check choice) (check' choice))
    (aside : Follows (Verdict.Like allowed) (check (.oneOf (undecided discriminator choices)))
      (check' (.oneOf (undecided discriminator choices))))
    (variants : List Schema) (options : Options) {value value' : Value}
    (alike : value.Like allowed value') :
    Follows (Verdict.Like allowed)
      (checkDispatch check discriminator variants choices options value)
      (checkDispatch check' discriminator variants choices options value') := by
  cases alike with
  | @object content content' fields fields' tags identities keys those =>
    have fieldsAlike : fields.Like allowed fields' := Fields.forall₂_of_keys_eq _ keys those
    have found := fieldsAlike.lookup (dispatchKey discriminator variants options tags)
    simp only [checkDispatch, selected?, foundText, found.literal?_eq, found.kind_eq]
    generalize selected : (((Fields.get? (dispatchKey discriminator variants options tags)
      fields').getD .undefined).literal?.bind discriminator.variantOf?).bind
        (fun index => choices[index]?) = choice
    cases choice with
    | some choice => exact each choice (Discriminator.mem_of_chosen? selected)
    | none =>
      simp only
      split
      · exact .ok (.rejected _)
      · exact aside
  | _ =>
    simp only [checkDispatch]
    split
    · exact .ok (.rejected _)
    · exact aside

end

end Validator

namespace Context

variable {context : Context} {allowed : Identity → Identity → Prop}

/-- Leaves judge alike values alike. -/
theorem attempt_leaf_follows (reflexive : ∀ identity, allowed identity identity)
    {schema : Schema} (leaf : schema.isLeaf = true) (known : schema.KnownFormats context.format)
    {fuel fuel' : Nat} (more : fuel ≤ fuel') (place place' : Identity) {value value' : Value}
    (alike : value.Like allowed value') :
    Follows (Verdict.Like allowed) (context.attempt fuel schema place value)
      (context.attempt fuel' schema place' value') := by
  rcases fuel with _ | less
  · exact .error _ _
  rcases fuel' with _ | less'
  · exact absurd more (Nat.not_succ_le_zero _)
  cases schema with
  | unknown => exact .ok (.accepted alike)
  | void => cases alike <;> exact .ok (.refl reflexive _)
  | null => cases alike <;> exact .ok (.refl reflexive _)
  | boolean node rules => cases alike <;> exact .ok (.refl reflexive _)
  | integer node rules => cases alike <;> exact .ok (.refl reflexive _)
  | number node rules => cases alike <;> exact .ok (.refl reflexive _)
  | string node rules =>
    cases alike with
    | string text =>
      simp only [attempt, Schema.validator, Validator.run, Validator.checkString]
      split
      · exact .ok (.rejected _)
      · cases named : rules.format with
        | none => exact .ok (.refl reflexive _)
        | some name =>
          obtain ⟨inner, listed, found⟩ := known name named
          obtain ⟨form, accepts, rfl⟩ := Formats.builtin_textForm listed
          simp only [surroundings, Surroundings.ofDefinitions, found]
          rcases less with _ | less
          · exact .error _ _
          rcases less' with _ | less'
          · omega
          simp only [Validator.run, Validator.textForm]
          cases accepts text <;> exact .ok (.refl reflexive _)
    | _ => exact .ok (.rejected _)
  | array node items least most => cases leaf
  | object node properties additional => cases leaf
  | union node choices => cases leaf
  | intersection node components => cases leaf
  | named ref => cases leaf

/-- Attempts by a union follow each other when those by its options do. -/
theorem attempt_union_follows (parts : ∀ place place', allowed place place' →
      ∀ index, allowed (place.part index) (place'.part index))
    {less less' : Nat} (fewer : less ≤ less') {place place' : Identity}
    (places : allowed place place') {value value' : Value} (alike : value.Like allowed value')
    {choices : List Schema}
    (options : ∀ {short long : Nat} {origin origin' : Identity}, short ≤ less → short ≤ long →
      allowed origin origin' → ∀ choice ∈ choices, Follows (Verdict.Like allowed)
        (context.attempt short choice origin value) (context.attempt long choice origin' value'))
    (node : Nat) :
    Follows (Verdict.Like allowed) (context.attempt (less + 1) (.union node choices) place value)
      (context.attempt (less' + 1) (.union node choices) place' value') := by
  have each : ∀ {short long : Nat} {origin origin' : Identity}, short ≤ less → short ≤ long →
      allowed origin origin' → ∀ choice ∈ choices.map (Schema.validator context.definitions),
      Follows (Verdict.Like allowed)
        (Validator.run context.surroundings short choice context.settings origin value)
        (Validator.run context.surroundings long choice context.settings origin' value') := by
    intro short long origin origin' smaller fewer origins choice member
    obtain ⟨listed, among, rfl⟩ := List.mem_map.mp member
    exact options smaller fewer origins listed among
  cases decided : Discriminator.find? context.definitions choices with
  | none =>
    rw [attempt_union_none _ _ _ _ decided, attempt_union_none _ _ _ _ decided]
    exact Validator.checkOneOf_follows
      (fun position => each (Nat.le_refl less) fewer (parts _ _ places position)) alike
  | some discriminator =>
    rw [attempt_union_some _ _ _ _ decided, attempt_union_some _ _ _ _ decided]
    refine Validator.checkDispatch_follows (each (Nat.le_refl less) fewer places) ?_ _ _ alike
    rcases less with _ | short
    · exact .error .exhausted _
    rcases less' with _ | long
    · exact absurd fewer (Nat.not_succ_le_zero _)
    refine Validator.checkOneOf_follows (fun position choice aside => ?_) alike
    exact each (Nat.le_succ short) (Nat.le_of_succ_le_succ fewer) (parts _ _ places position)
      choice (Discriminator.mem_of_mem_aside aside)

/-- An attempt follows each one with less fuel, at another place, of an alike value. The
tag that a container gives is the same in both. -/
theorem attemptAs_follows (reflexive : ∀ identity, allowed identity identity)
    (parts : ∀ place place', allowed place place' →
      ∀ index, allowed (place.part index) (place'.part index))
    {schema : Schema} (sound : context.Sound schema) (tag : Schema) {fuel fuel' : Nat}
    (more : fuel ≤ fuel') {place place' : Identity} (places : allowed place place')
    {value value' : Value} (alike : value.Like allowed value') :
    Follows (Verdict.Like allowed) (context.attemptAs tag fuel schema place value)
      (context.attemptAs tag fuel' schema place' value') := by
  induction fuel using Nat.strongRecOn
    generalizing schema tag fuel' place place' value value' with
  | ind fuel ih =>
  have inner : ∀ {less less' : Nat} {part : Schema} {origin origin' : Identity}
      {item item' : Value}, less < fuel → less ≤ less' →
      part ∈ schema.parts context.definitions → allowed origin origin' → item.Like allowed item' →
      Follows (Verdict.Like allowed) (context.attempt less part origin item)
        (context.attempt less' part origin' item') := by
    intro less less' part origin origin' item item' smaller fewer member origins items
    rw [attempt_eq_attemptAs, attempt_eq_attemptAs]
    exact ih less smaller (sound.part member) part fewer origins items
  rcases fuel with _ | less
  · exact .error .exhausted _
  rcases fuel' with _ | less'
  · exact absurd more (Nat.not_succ_le_zero _)
  have fewer : less ≤ less' := Nat.le_of_succ_le_succ more
  by_cases leaf : schema.isLeaf = true
  · have follows :=
      attempt_leaf_follows reflexive leaf sound.here.knownFormats more place place' alike
    cases schema <;> first | exact follows | cases leaf
  cases schema with
  | array node items least most =>
    rw [attemptAs_array, attemptAs_array]
    refine Validator.checkArray_follows (fun index item item' same => ?_) _ _ _ _ places alike
    exact inner (Nat.lt_succ_self less) fewer
      (List.mem_append_right _ Schema.items_mem_contents) (parts _ _ places index) same
  | object node properties additional =>
    rw [attemptAs_object, attemptAs_object]
    refine Validator.checkObject_follows ?_ ?_ _ _ _ places alike
    · intro index property member item item' same
      obtain ⟨declared, listed, rfl⟩ := List.mem_map.mp member
      exact inner (Nat.lt_succ_self less) fewer
        (List.mem_append_right _ (Schema.body_mem_contents listed))
        (parts _ _ (parts _ _ places 0) index) same
    · intro index body member item item' same
      cases additional with
      | each declared =>
        obtain rfl := List.mem_singleton.mp member
        exact inner (Nat.lt_succ_self less) fewer
          (List.mem_append_right _ Schema.each_mem_contents)
          (parts _ _ (parts _ _ places 1) index) same
      | keep => cases member
      | deny => cases member
  | intersection node components =>
    change Follows _ (context.attempt _ _ _ _) (context.attempt _ _ _ _)
    rw [attempt_intersection, attempt_intersection]
    refine Validator.checkComponents_follows ?_ _ alike _
    intro position component member item item' same
    obtain ⟨listed, among, rfl⟩ := List.mem_map.mp member
    exact inner (Nat.lt_succ_self less) fewer (List.mem_append_left _ among)
      (parts _ _ places position) same
  | union node choices =>
    change Follows _ (context.attempt _ _ _ _) (context.attempt _ _ _ _)
    refine attempt_union_follows parts fewer places alike ?_ node
    intro short long origin origin' smaller fewer origins choice among
    exact inner (Nat.lt_succ_of_le smaller) fewer (List.mem_append_left _ among) origins alike
  | named ref =>
    change Follows _ (context.attempt _ _ _ _) (context.attempt _ _ _ _)
    intro verdict ended
    have definition : context.Sound (context.definitions ref) :=
      sound.facet Schema.definition_mem_facets
    rcases attempt_named_ok context _ _ _ ended with
      ⟨container, short, equal, judged⟩ | ⟨other, short, first, equal, judged, rfl⟩
    · obtain rfl : less = short + 1 := by omega
      obtain ⟨long, rfl⟩ : ∃ long, less' = long + 1 := ⟨less' - 1, by omega⟩
      rw [attempt_named_container _ _ _ _ container]
      exact ih short (by omega) definition (.named ref) (by omega) places alike verdict judged
    · obtain rfl : less = short + 2 := by omega
      obtain ⟨long, rfl⟩ : ∃ long, less' = long + 2 := ⟨less' - 2, by omega⟩
      have fewer : short ≤ long := by omega
      obtain ⟨second, judged', same⟩ := inner (by omega) fewer
        (List.mem_append_left _ Schema.definition_mem_facets) places alike first judged
      rw [attempt_named_other _ _ _ _ other, judged']
      exact ⟨_, rfl, same.map _⟩
  | _ => exact absurd rfl leaf

/-- What one attempt decides, every attempt with as much fuel decides alike. -/
theorem attempt_follows {schema : Schema} (sound : context.Sound schema) {fuel fuel' : Nat}
    (more : fuel ≤ fuel') (place place' : Identity) {value value' : Value}
    (alike : value.Identical value') :
    Follows (Verdict.Like fun _ _ => True) (context.attempt fuel schema place value)
      (context.attempt fuel' schema place' value') := by
  rw [attempt_eq_attemptAs, attempt_eq_attemptAs]
  exact attemptAs_follows (fun _ => trivial) (fun _ _ _ _ => trivial) sound schema more trivial
    alike

/-- More fuel leaves a verdict as it is, identities included. -/
theorem attempt_mono {schema : Schema} (sound : context.Sound schema) {fuel fuel' : Nat}
    (more : fuel ≤ fuel') {place : Identity} {value : Value} {verdict : Verdict}
    (ended : context.attempt fuel schema place value = .ok verdict) :
    context.attempt fuel' schema place value = .ok verdict := by
  rw [attempt_eq_attemptAs] at ended ⊢
  obtain ⟨verdict', ended', same⟩ := attemptAs_follows (fun _ => rfl)
    (fun _ _ places index => congrArg (fun place => Identity.part place index) places) sound schema
    more rfl (Value.Like.refl (fun _ => rfl) value) verdict ended
  rw [ended', Verdict.eq_of_like same]

/-- What is judged once is judged so from some fuel on and at every place. -/
theorem attempts_of_judged {schema : Schema} (sound : context.Sound schema) {value : Value}
    {verdict : Verdict} (judged : context.Judges schema value verdict) :
    ∃ bound, ∀ fuel, bound ≤ fuel → ∀ place, ∃ verdict',
      context.attempt fuel schema place value = .ok verdict' ∧
        verdict.Like (fun _ _ => True) verdict' := by
  obtain ⟨bound, origin, ended⟩ := judged
  exact ⟨bound, fun fuel enough place => attempt_follows sound enough origin place
    (Value.Like.refl (fun _ => trivial) value) verdict ended⟩

/-- Verdicts on identical values differ in identities only. -/
theorem judged_like {schema : Schema} (sound : context.Sound schema) {value value' : Value}
    (same : value.Identical value') {verdict verdict' : Verdict}
    (judged : context.Judges schema value verdict)
    (judged' : context.Judges schema value' verdict') :
    verdict.Like (fun _ _ => True) verdict' := by
  obtain ⟨fuel, place, ended⟩ := judged
  obtain ⟨fuel', place', ended'⟩ := judged'
  obtain ⟨reached, there, alike⟩ := attempt_follows sound (Nat.le_max_left fuel fuel') place place'
    same verdict ended
  rw [attempt_mono sound (Nat.le_max_right fuel fuel') ended'] at there
  exact Except.ok.inj there ▸ alike

/-- Two verdicts on one value differ in identities only. -/
theorem judged_alike {schema : Schema} (sound : context.Sound schema) {value : Value}
    {verdict verdict' : Verdict} (judged : context.Judges schema value verdict)
    (judged' : context.Judges schema value verdict') : verdict.Like (fun _ _ => True) verdict' :=
  judged_like sound (Value.Like.refl (fun _ => trivial) value) judged judged'

end Context

end Conform
