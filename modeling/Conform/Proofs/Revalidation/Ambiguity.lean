import Conform.Proofs.Attempt.Ends
import Conform.Proofs.Discriminator.Dispatch
import Conform.Proofs.Revalidation.Restated

/-!
# Validating an answer again

Under strict options a validator that accepted a value may refuse its own answer, because
the answer carries tags and a tag makes an option preferred. It does so for this reason only:
somewhere behind the refusal several options, or several preferred ones, match.
-/

namespace Conform

namespace Violation

/-- Somewhere behind the violation several options match. -/
inductive Ambiguous : Violation → Prop
  | preferred (path : List String) (options : List Nat) :
    Ambiguous (.single path (.manyPreferred options))
  | options (path : List String) (options : List Nat) :
    Ambiguous (.single path (.manyOptions options))
  | behind {cause : Violation} {causes : List Violation} (path : List String) (reason : Reason)
      (member : cause ∈ causes) (ambiguous : Ambiguous cause) :
      Ambiguous (.group path reason causes)

/-- One of the violations is ambiguous. -/
def AnyAmbiguous (violations : List Violation) : Prop :=
  ∃ violation ∈ violations, violation.Ambiguous

/-- A violation that groups ambiguous ones is ambiguous. -/
theorem AnyAmbiguous.group {causes : List Violation} (any : AnyAmbiguous causes)
    (path : List String) (reason : Reason) : AnyAmbiguous [.group path reason causes] := by
  obtain ⟨cause, member, ambiguous⟩ := any
  exact ⟨_, .head _, .behind path reason member ambiguous⟩

/-- Ambiguous violations stay ambiguous further down. -/
theorem AnyAmbiguous.under {causes : List Violation} (any : AnyAmbiguous causes)
    (segment : String) : AnyAmbiguous (causes.map (Violation.under segment)) := by
  obtain ⟨cause, member, ambiguous⟩ := any
  refine ⟨_, List.mem_map_of_mem member, ?_⟩
  cases ambiguous with
  | preferred path options => exact .preferred (segment :: path) options
  | options path options => exact .options (segment :: path) options
  | behind path reason inside ambiguous =>
    exact .behind (segment :: path) reason inside ambiguous

end Violation

open Violation (AnyAmbiguous)

namespace Validator

section

variable {judges judges' : Schema → Value → Verdict → Prop} {properties : List (Property Schema)}
  {additional : Additional Schema} {fields fields' answers : Fields Value}
  {violations : List Violation}

/-- Fields that agree with accepted ones are refused ambiguously, when their bodies are. -/
theorem FieldsRefused.ambiguous
    (forbidden : ∀ key ∈ forbiddenKeys, key ∈ fields.keys ↔ key ∈ fields'.keys)
    (agree : ∀ key, (fields.lookup key).Agrees (fields'.lookup key)) (distinct' : fields'.Distinct)
    (each : ∀ body ∈ properties.map Property.body ++ additional.bodies, ∀ key answer causes,
      (fields.lookup key).isUndefined = false →
      judges body (fields.lookup key) (.accepted answer) →
      judges' body (fields'.lookup key) (.rejected causes) → AnyAmbiguous causes)
    (step : FieldsStep judges false false properties additional fields answers)
    (refused : FieldsRefused judges' false false properties additional fields' violations) :
    AnyAmbiguous violations := by
  obtain ⟨found, extras, permitted, declared, others⟩ := step
  -- what is left over among the agreeing fields was left over before
  have left : ∀ {key value}, (key, value) ∈ otherFields false properties fields' →
      fields'.lookup key = value ∧ (fields.lookup key).isUndefined = false ∧
        (key, fields.lookup key) ∈ otherFields false properties fields := by
    intro key value among
    obtain ⟨member, untaken, there'⟩ := mem_otherFields.mp among
    have same := Fields.lookup_of_mem distinct' member
    have there : (fields.lookup key).isUndefined = false := by
      rw [(agree key).isUndefined_eq, same]
      exact there'
    exact ⟨same, there, mem_otherFields.mpr ⟨Fields.mem_of_lookup there, untaken, there⟩⟩
  cases refused with
  | forbidden member among =>
    obtain ⟨value, inside⟩ :=
      Fields.exists_mem_of_mem_keys ((forbidden _ among).mpr (Fields.mem_keys member))
    exact absurd among (permitted _ inside)
  | @missing property member absent required =>
    have step := declared property member
    generalize found property.name = answer at step
    rw [readKey_false, ← (agree _).isUndefined_eq] at absent
    cases step with
    | absent missing optional => cases optional.symm.trans required
    | present there judged =>
      rw [readKey_false] at there
      cases there.symm.trans absent
  | @property property causes member present judged' =>
    have step := declared property member
    generalize found property.name = answer at step
    rw [readKey_false] at judged' present
    rw [← (agree _).isUndefined_eq] at present
    cases step with
    | absent missing optional =>
      rw [readKey_false] at missing
      cases missing.symm.trans present
    | present there judged =>
      rw [readKey_false] at judged
      have listed := additional.declared_mem member
      exact (each _ listed _ _ _ present judged judged').under property.name
  | others refused =>
    cases refused with
    | unexpected closed kept member =>
      subst closed
      obtain ⟨_, _, among⟩ := left member
      rw [others.2.resolve_left Bool.false_ne_true] at among
      cases among
    | @judged key value body causes typed member judged' =>
      subst typed
      obtain ⟨rfl, there, among⟩ := left member
      obtain ⟨_, _, same, judged⟩ := forall₂_mem others among
      have listed : body ∈ properties.map Property.body ++ (Additional.each body).bodies :=
        Additional.each_mem properties rfl
      exact (each body listed key _ _ there judged judged').under key

end

/-- When components refuse a value that is related to one they accepted, and what they accept is
related again, one of them refuses what is related to something it accepted. -/
theorem Chain.refused_related {judges judges' : Schema → Value → Verdict → Prop}
    {components : List Schema} (related : Value → Value → Prop)
    (kept : ∀ component ∈ components, ∀ item item' answer answer', related item item' →
      judges component item (.accepted answer) → judges' component item' (.accepted answer') →
      related answer answer')
    {value value' answer : Value} {tags tags' : Tags} {violations : List Violation}
    (start : related value value') (chain : Chain judges components value tags (.accepted answer))
    (chain' : Chain judges' components value' tags' (.rejected violations)) :
    ∃ component ∈ components, ∃ item item' answer causes number, related item item' ∧
      judges component item (.accepted answer) ∧ judges' component item' (.rejected causes) ∧
      violations = [.group [] (.component number) causes] := by
  induction components generalizing value value' tags tags' with
  | nil => cases chain'
  | cons component rest ih =>
    cases chain with
    | next judged further =>
      cases chain' with
      | next judged' further' =>
        obtain ⟨other, member, found⟩ := ih (fun other member => kept other (.tail _ member))
          (kept component (.head _) _ _ _ _ start judged judged') further further'
        exact ⟨other, .tail _ member, found⟩
      | refused number judged' =>
        exact ⟨component, .head _, _, _, _, _, number, start, judged, judged', rfl⟩

end Validator

namespace Context

variable {context : Context} {choices : List Schema} {value value' answer : Value}
  {violations : List Violation}

/-- Options refuse a value ambiguously when one of them, at least, does not refuse it without
ambiguity. -/
theorem tallied_ambiguous {judges : Schema → Value → Verdict → Prop} {verdicts : List Verdict}
    (judged : List.Forall₂ (fun choice verdict => judges choice value verdict) choices verdicts)
    (amounts : context.tallied choices value verdicts = .rejected violations) {choice : Schema}
    (member : choice ∈ choices)
    (each : ∀ causes, judges choice value (.rejected causes) → AnyAmbiguous causes) :
    AnyAmbiguous violations := by
  have lengths : (choices.map (Schema.validator context.definitions)).length =
      verdicts.length := by
    rw [List.length_map, judged.length_eq]
  rcases Validator.Trial.verdict_rejected amounts with
    ⟨none, rfl⟩ | ⟨_, ⟨numbers, rfl⟩ | ⟨numbers, rfl⟩⟩
  · obtain ⟨verdict, inside, result⟩ := forall₂_mem judged member
    cases verdict with
    | accepted answer =>
      have answers := Validator.tally_answers value 1 lengths
      rw [none] at answers
      have silent := List.filterMap_eq_nil_iff.mp answers.symm.eq_nil _ inside
      cases silent
    | rejected causes =>
      obtain ⟨cause, among, ambiguous⟩ := each causes result
      obtain ⟨number, failed⟩ := Validator.mem_failures_tally value 1 lengths inside
      exact ⟨_, .head _, .behind [] .noOption failed (.behind [] _ among ambiguous)⟩
  · exact ⟨_, .head _, .preferred [] numbers⟩
  · exact ⟨_, .head _, .options [] numbers⟩

/-- A union refuses a value ambiguously that agrees with one it accepted, when its options
do. -/
theorem UnionStep.ambiguous {judges judges' : Schema → Value → Verdict → Prop}
    (inward : context.settings.convertFromNetwork = false) (agree : value.Agrees value')
    (each : ∀ choice ∈ choices, ∀ answer causes, judges choice value (.accepted answer) →
      judges' choice value' (.rejected causes) → AnyAmbiguous causes)
    (step : context.UnionStep judges choices value (.accepted answer))
    (step' : context.UnionStep judges' choices value' (.rejected violations)) :
    AnyAmbiguous violations := by
  cases found : Discriminator.find? context.definitions choices with
  | none =>
    obtain ⟨verdicts, judged, amounts⟩ := step.undecided found
    obtain ⟨verdicts', judged', amounts'⟩ := step'.undecided found
    obtain ⟨choice, member, accepted⟩ := mem_of_tallied judged amounts
    exact tallied_ambiguous judged' amounts' member (each choice member answer · accepted)
  | some discriminator =>
    have same := Discriminator.chosen?_congr (agree.field discriminator.key).literal?_eq
      discriminator choices
    rcases step.decided inward found with ⟨choice, chosen, accepted⟩ | ⟨unchosen, how⟩
    · rcases step'.decided inward found with ⟨choice', chosen', refused⟩ | ⟨unchosen', _⟩
      · obtain rfl := Option.some.inj (chosen.symm.trans (same.trans chosen'))
        exact each choice (Discriminator.mem_of_chosen? chosen) answer _ accepted refused
      · cases chosen.symm.trans (same.trans unchosen')
    · rcases how with ⟨_, refused⟩ | ⟨verdicts, judged, amounts⟩
      · cases refused
      obtain ⟨choice, member, accepted⟩ := mem_of_tallied judged amounts
      rcases step'.decided inward found with ⟨choice', chosen', _⟩ | ⟨_, how'⟩
      · cases unchosen.symm.trans (same.trans chosen')
      rcases how' with ⟨complete, _⟩ | ⟨verdicts', judged', amounts'⟩
      · rw [Discriminator.aside, complete] at member
        cases member
      · exact tallied_ambiguous judged' amounts' member
          (each choice (Discriminator.mem_of_mem_aside member) answer · accepted)

variable {schema : Schema}

/-- A leaf does not refuse a value that is the same scalar as one it accepted. -/
theorem leaf_not_refused (leaf : schema.isLeaf = true) (known : schema.KnownFormats context.format)
    (same : value.tags? = none → value' = value)
    (judged : context.Judges schema value (.accepted answer)) :
    ¬ context.Judges schema value' (.rejected violations) := by
  intro refused
  have ended' := leaf_settled leaf known refused 0 (.run 0)
  by_cases everything : schema = .unknown
  · subst everything
    cases ended'
  · have scalar := leaf_scalar leaf known everything judged
    rw [same scalar, leaf_settled leaf known judged 0 (.run 0)] at ended'
    cases ended'

/-- A validator refuses a value ambiguously that agrees with one it accepted. -/
theorem refused_ambiguously (strict : context.settings = .strict) (sound : context.Sound schema)
    (keyed : value.Throughout Value.Keyed) (keyed' : value'.Throughout Value.Keyed)
    (agree : value.Agrees value') (judged : context.Judges schema value (.accepted answer))
    (refused : context.Judges schema value' (.rejected violations)) : AnyAmbiguous violations := by
  have faithful : context.settings.Faithful := strict ▸ Options.strict_faithful
  obtain ⟨_, inward, lone, keep⟩ := faithful
  revert keyed value' violations
  refine accepted_induction (motive := fun schema value _ => ∀ {value'} {violations},
    value.Throughout Value.Keyed → value'.Throughout Value.Keyed → value.Agrees value' →
    context.Judges schema value' (.rejected violations) → AnyAmbiguous violations)
    ?_ sound sound judged
  clear sound judged
  intro schema value answer sound step value' violations keyed keyed' agree rejected
  have again := judged_step sound rejected
  cases step with
  | leaf leaf judged =>
    exact absurd rejected (leaf_not_refused leaf sound.here.knownFormats agree.eq_of_scalar judged)
  | @items node items least most list answers place shape found count judged =>
    obtain ⟨content, tags, rfl⟩ := Validator.itemsOf?_eq_some lone found
    cases found
    cases agree with
    | @array _ content' _ list' _ tags' lengths each =>
    rcases again.array_refused shape with none | ⟨_, found', again⟩
    · cases none
    cases found'
    rcases again with ⟨reason, miscounted⟩ | ⟨index, item', causes, member', refused, rfl⟩
    · rw [← lengths, count] at miscounted
      cases miscounted
    · have pairs := List.forall₂_iff_get.mpr ⟨lengths, each⟩
      obtain ⟨position, at'⟩ := List.getElem?_of_mem member'
      obtain ⟨item, at_, same⟩ := forall₂_getElem?_right pairs at'
      obtain ⟨answer, _, accepted⟩ := forall₂_getElem? judged at_
      have inside := List.mem_of_getElem? at_
      exact (accepted.2.2 answer rfl (keyed.item inside) (keyed'.item member') same
        refused).under _
  | @fields node properties additional content fields answers tags place shape object judged =>
    subst object
    cases agree with
    | @object _ content' _ fields' _ tags' forbidden each =>
    rcases again.object_refused shape with other | ⟨_, _, _, same, refused⟩
    · exact absurd rfl other
    cases same
    rw [inward, keep, Bool.false_and] at judged refused
    refine Validator.FieldsRefused.ambiguous forbidden each keyed'.here ?_ judged refused
    intro body _ key answer causes there accepted refused
    have there' : (Fields.lookup key fields').isUndefined = false := by
      rw [← (each key).isUndefined_eq, there]
    exact accepted.2.2 answer rfl (keyed.field (Fields.mem_of_lookup there))
      (keyed'.field (Fields.mem_of_lookup there')) (each key) refused
  | @union node choices _ shape judged =>
    subst shape
    refine UnionStep.ambiguous inward agree ?_ judged again.by_options
    exact fun choice _ answer causes accepted refused =>
      accepted.2.2 answer rfl keyed keyed' agree refused
  | @intersection node components _ shape judged =>
    subst shape
    -- answers of agreeing values agree, so the next component sees agreeing values again
    obtain ⟨component, _, item, item', answer, causes, number, ⟨agree, keyed, keyed'⟩, accepted,
      refused, rfl⟩ := judged.refused_related (fun item item' => item.Agrees item' ∧
        item.Throughout Value.Keyed ∧ item'.Throughout Value.Keyed) (by
      rintro component member item item' answer answer' ⟨agree, keyed, keyed'⟩ accepted accepted'
      have first := answer_restates strict (sound.facet member) keyed accepted.2.1
      have second := answer_restates strict (sound.facet member) keyed' accepted'
      exact ⟨(first.agrees.symm.trans agree).trans second.agrees, first.keyed, second.keyed⟩)
      ⟨agree, keyed, keyed'⟩ again.by_components
    exact (accepted.2.2 answer rfl keyed keyed' agree refused).group [] _
  | @named ref inner verdict shape other judged tagged =>
    subst shape
    obtain ⟨inner', refused, tagged'⟩ := again.by_definition other
    obtain ⟨first, rfl, rfl⟩ := accepted_of_map tagged
    cases inner' with
    | accepted answer' => cases tagged'
    | rejected causes =>
      obtain rfl := Verdict.rejected.inj tagged'
      exact judged.2.2 first rfl keyed keyed' agree refused

/-- With enough fuel a validator returns on its own answer. What it accepts agrees with the
answer, and is equal to it when the first value lacks nothing. What it refuses, it refuses
because several options match somewhere. -/
theorem revalidates (strict : context.settings = .strict) (sound : context.Sound schema)
    (grounded : schema.Grounded context.definitions) (keyed : value.Throughout Value.Keyed)
    (judged : context.Judges schema value (.accepted answer)) :
    ∃ bound, ∀ fuel, bound ≤ fuel → ∀ place, ∃ verdict,
      context.attempt fuel schema place answer = .ok verdict ∧
        (∀ answer', verdict = .accepted answer' → answer'.Agrees answer ∧
          (value.Throughout Value.Filled → answer'.eq answer = true)) ∧
        ∀ violations, verdict = .rejected violations → AnyAmbiguous violations := by
  have faithful : context.settings.Faithful := strict ▸ Options.strict_faithful
  have restates := answer_restates strict sound keyed judged
  obtain ⟨bound, ends⟩ := settles faithful.lone sound grounded answer.depth
  refine ⟨bound, fun fuel enough place => ?_⟩
  obtain ⟨verdict, ended⟩ := ends fuel enough place answer (Nat.le_refl _)
  refine ⟨verdict, ended, ?_, ?_⟩
  · rintro answer' rfl
    have again := answer_restates strict sound restates.keyed ⟨fuel, place, ended⟩
    refine ⟨again.agrees.symm, fun filled => again.agrees.symm.eq ⟨again.keyed, ?_⟩ ⟨?_, ?_⟩⟩
    · exact again.filled (restates.filled filled)
    · exact restates.keyed
    · exact restates.filled filled
  · rintro violations rfl
    exact refused_ambiguously strict sound keyed restates.keyed restates.agrees judged
      ⟨fuel, place, ended⟩

/-- What a validator accepts it accepts again, and answers it with equal data. -/
def Idempotent (context : Context) (schema : Schema) (value : Value) : Prop :=
  ∀ answer, context.Judges schema value (.accepted answer) →
    ∃ answer', context.Judges schema answer (.accepted answer') ∧ answer'.eq answer = true

/-- A schema that refuses its own answer is not idempotent. -/
theorem not_idempotent_of_refused (sound : context.Sound schema)
    (judged : context.Judges schema value (.accepted answer))
    (refused : context.Judges schema answer (.rejected violations)) :
    ¬ context.Idempotent schema value := by
  intro idempotent
  obtain ⟨_, again, _⟩ := idempotent answer judged
  cases judged_alike sound again refused

/-- A schema that answers its own answer otherwise is not idempotent. -/
theorem not_idempotent_of_unequal (sound : context.Sound schema)
    (judged : context.Judges schema value (.accepted answer))
    (again : context.Judges schema answer (.accepted value'))
    (unequal : value'.eq answer = false) : ¬ context.Idempotent schema value := by
  intro idempotent
  obtain ⟨_, accepted, same⟩ := idempotent answer judged
  cases judged_alike sound accepted again with
  | accepted alike =>
    rw [alike.eq_congr (Value.Like.refl (fun _ => trivial) answer), unequal] at same
    cases same

end Context

namespace Shapes

/-- The group is validated again. -/
theorem drawing_revalidates :
    let context : Context := ⟨definitions, fun _ => none, .strict⟩
    ∃ answer, context.Judges shape drawing (.accepted answer) ∧
      ∃ bound, ∀ fuel, bound ≤ fuel → ∀ place, ∃ verdict,
        context.attempt fuel shape place answer = .ok verdict ∧
          (∀ answer', verdict = .accepted answer' → answer'.Agrees answer ∧
            (drawing.Throughout Value.Filled → answer'.eq answer = true)) ∧
          ∀ violations, verdict = .rejected violations → AnyAmbiguous violations := by
  intro context
  have inside : shape ∈ nodes := .head _
  have keyed : drawing.Throughout Value.Keyed := by
    simp [drawing, Value.Keyed, Fields.Distinct, Fields.keys]
  obtain ⟨answer, ended⟩ : ∃ answer, context.attempt 20 shape (.run 3) drawing =
      .ok (.accepted answer) := ⟨_, rfl⟩
  exact ⟨answer, ⟨20, .run 3, ended⟩,
    Context.revalidates rfl (sound _ _ inside) (grounded inside) keyed ⟨20, .run 3, ended⟩⟩

end Shapes

/-! ## Two names for one shape

Two names that each stand for any object make an option preferred once the other name, or
the same one, has been judged.
-/

namespace Twins

/-- Any object, by one name. -/
def first : Schema :=
  .named ⟨0, "First"⟩

/-- Any object, by another name. -/
def second : Schema :=
  .named ⟨1, "Second"⟩

/-- One of the names only, which an object without tags cannot tell. -/
def either : Schema :=
  .union 2 [first, second]

/-- The first name is preferred until the second has been judged as well. -/
def thrice : Schema :=
  .intersection 3 [first, either, second]

/-- Accepts `c` while it has no tags. -/
def before : Schema :=
  .object 4 [⟨"a", true, none, .unknown⟩, ⟨"b", true, none, first⟩, ⟨"c", true, none, thrice⟩] .keep

/-- Accepts `b` once it has a tag. -/
def after : Schema :=
  .object 5 [⟨"a", true, none, .object 6 [] .keep⟩, ⟨"b", true, none, either⟩,
    ⟨"c", true, none, .unknown⟩] .keep

/-- Judged in the first way, a record is judged in the second way the next time. -/
def changing : Schema :=
  .union 7 [before, after]

/-- What the names stand for. -/
def definitions (ref : NamedRef) : Schema :=
  .object (ref.key + 8) [] .keep

/-- All nodes that a record reaches. -/
def nodes : List Schema :=
  [changing, before, after, thrice, either, first, second, .object 6 [] .keep, .object 8 [] .keep,
    .object 9 [] .keep, .unknown]

/-- Components rank below intersections, options below unions, and objects below names. -/
def rank : Schema → Nat
  | .intersection _ _ => 3
  | .union _ _ => 2
  | .named _ => 1
  | _ => 0

/-- An object without fields. -/
def blank : Value :=
  .object (.run 0) [] []

/-- A record with a missing value inside `a`. -/
def record : Value :=
  .object (.run 1)
    [("a", .object (.run 2) [("lost", .undefined)] []), ("b", blank), ("c", blank)] []

/-- The object, judged thrice. -/
def marked (place : Identity) : Value :=
  .object (place.part 3) [] [first, second]

/-- The record, judged before. -/
def judged : Value :=
  .object ((Identity.run 3).part 1) [("a", .object (.run 2) [("lost", .undefined)] []),
    ("b", .object ((((Identity.run 3).part 1).part 0).part 1) [] [first]),
    ("c", marked ((((Identity.run 3).part 1).part 0).part 2))] [before]

/-- The record, judged after. -/
def rejudged : Value :=
  .object ((Identity.run 4).part 2) [
    ("a", .object ((((Identity.run 4).part 2).part 0).part 0) [] [.object 6 [] .keep]),
    ("b", .object (((((Identity.run 4).part 2).part 0).part 1).part 1) [] [first]),
    ("c", marked ((((Identity.run 3).part 1).part 0).part 2))] [before, after]

/-- Names in three places are refused after they were accepted, and a record is accepted
again without the field that had no value. -/
theorem not_idempotent :
    let context : Context := ⟨definitions, fun _ => none, .strict⟩
    (context.Sound thrice ∧ thrice.Grounded definitions ∧ blank.Throughout Value.Bare ∧
        ¬ context.Idempotent thrice blank) ∧
      (context.Sound changing ∧ changing.Grounded definitions ∧ record.Throughout Value.Bare ∧
        ¬ context.Idempotent changing record) := by
  intro context
  have everywhere : ∀ {holds : Schema → Prop}, (∀ node ∈ nodes, holds node) →
      ∀ schema ∈ nodes, schema.Throughout definitions holds := fun all schema member =>
    Schema.throughout_of_closed nodes (by decide +kernel) all member
  have sound : ∀ schema ∈ nodes, context.Sound schema := everywhere (by
    simp [nodes, Schema.wellFormed_iff, Schema.DistinctNames, Schema.KnownFormats, changing,
      before, after, thrice, either, first, second, Property.names])
  have grounded : ∀ schema ∈ nodes, schema.Grounded definitions := fun schema member =>
    Schema.grounded_of_rank rank (everywhere (by decide +kernel) schema member)
  have empty : blank.Throughout Value.Bare := by
    simp [blank, Value.bare_iff, Value.Keyed, Fields.Distinct, Fields.keys, Value.tags, Value.tags?]
  have missing : Value.undefined.Throughout Value.Bare :=
    (Value.throughout_scalar_iff rfl).mpr ⟨rfl, trivial⟩
  have full : record.Throughout Value.Bare := by
    simp [record, empty, missing, Value.bare_iff, Value.Keyed, Fields.Distinct, Fields.keys,
      Value.tags, Value.tags?]
  have member : thrice ∈ nodes := by decide +kernel
  have member' : changing ∈ nodes := .head _
  refine ⟨⟨sound _ member, grounded _ member, empty, fun idempotent => ?_⟩,
    sound _ member', grounded _ member', full, fun idempotent => ?_⟩
  · have accepted : context.attempt 20 thrice (.run 3) blank =
        .ok (.accepted (marked (.run 3))) := by
      with_unfolding_all rfl
    have refused : context.attempt 20 thrice (.run 4) (marked (.run 3)) =
        .ok (.rejected [.group [] (.component 2) [.here (.manyPreferred [1, 2])]]) := by
      with_unfolding_all rfl
    obtain ⟨answer, again, _⟩ := idempotent _ ⟨_, _, accepted⟩
    cases Context.judged_alike (sound _ member) again ⟨_, _, refused⟩
  · have accepted : context.attempt 20 changing (.run 3) record = .ok (.accepted judged) := by
      with_unfolding_all rfl
    have ended : context.attempt 20 changing (.run 4) judged = .ok (.accepted rejudged) := by
      with_unfolding_all rfl
    have other : rejudged.eq judged = false := by
      with_unfolding_all rfl
    obtain ⟨answer', again, same⟩ := idempotent _ ⟨_, _, accepted⟩
    cases Context.judged_alike (sound _ member') again ⟨_, _, ended⟩ with
    | accepted alike =>
      rw [alike.eq_congr (Value.Like.refl (fun _ => trivial) judged), other] at same
      cases same

end Twins

end Conform
