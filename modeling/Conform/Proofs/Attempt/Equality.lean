import Conform.Proofs.Attempt.Termination
import Conform.Proofs.Discriminator.Dispatch
import Conform.Proofs.Revalidation.Scalars
import Conform.Proofs.Value.Equality

/-!
# Validation respects equality

Equal values that carry the same tags are accepted alike, with equal answers that carry the same
tags, or both refused. They may differ in the order of fields and in how numbers are given.

Fields are read by their keys, so their order decides only which of several refusals comes first.
A leaf looks at the value of a number, and hands it back as it was given. A union looks at
literals, tags and equality, which all respect the values of numbers.
-/

namespace Conform

namespace Literal

/-- Literals that are the same are in the same lists. -/
theorem isIn_congr {literal other : Literal} (same : literal.same other = true)
    (literals : List Literal) : literal.isIn literals = other.isIn literals := by
  unfold isIn
  congr 1
  funext entry
  rw [Bool.eq_iff_iff]
  constructor
  · exact fun first => same_trans first same
  · exact fun first => same_trans first (same_symm literal other ▸ same)

end Literal

namespace Value

/-- Equal scalars denote the same literal. -/
theorem Equates.literal {among : Tags → Tags → Prop} {value value' : Value}
    (same : value.Equates among value') :
    Option.Rel (fun literal other => literal.same other = true) value.literal?
      value'.literal? := by
  cases same with
  | undefined => exact .none
  | null => exact .some (Literal.same_refl _)
  | bool value => exact .some (Literal.same_refl _)
  | number same => exact .some same
  | string value => exact .some (Literal.same_refl _)
  | array => exact .none
  | object => exact .none

/-- Equality under equal tags keeps what validation looks at. -/
theorem congruence_equates : Congruence (Equates Eq) where
  symm same := same.symm (fun _ _ => Eq.symm)
  kind_eq same := same.kind_eq
  tags_eq same := by
    cases same with
    | array tagged => exact tagged
    | object tagged => exact tagged
    | _ => rfl
  withTags same schemas := by
    cases same with
    | undefined => exact .undefined
    | null => exact .null
    | bool value => exact .bool value
    | number same => exact .number same
    | string value => exact .string value
    | array tagged lengths each => exact .array (by rw [tagged]) lengths each
    | object tagged distinct distinct' keys each =>
      exact .object (by rw [tagged]) distinct distinct' keys each
  eq_congr same others := same.eq_congr others
  literal same := same.literal
  items same := by
    cases same with
    | array tagged lengths each => exact List.forall₂_iff_get.mpr ⟨lengths, each⟩
  array items _ _ _ := by
    obtain ⟨lengths, each⟩ := List.forall₂_iff_get.mp items
    exact .array rfl lengths each
  lookup same := by
    cases same with
    | object tagged distinct distinct' keys each => exact each
  field same member := by
    cases same with
    | object tagged distinct distinct' keys each =>
      obtain ⟨item', inside⟩ :=
        Fields.exists_mem_of_mem_keys ((keys _).mp (Fields.mem_keys member))
      refine ⟨item', inside, ?_⟩
      rw [← Fields.lookup_of_mem distinct member, ← Fields.lookup_of_mem distinct' inside]
      exact each _

end Value

/-! ## Leaves -/

/-- Which literals a value is none of depends on the literal that it denotes. -/
theorem literalReason?_congr (allowed : List Literal) {value value' : Value}
    (same : Option.Rel (fun literal other => literal.same other = true) value.literal?
      value'.literal?) :
    literalReason? allowed value = literalReason? allowed value' := by
  unfold literalReason?
  revert same
  cases value.literal? <;> cases value'.literal? <;> rintro (_ | _)
  · rfl
  · next literal => simp only [Literal.isIn_congr literal]

/-- A number node looks at the value of a number. -/
theorem checkNumber_related (whole : Bool) (rules : NumberRules) (options : Options)
    {number number' : Number} (same : number.numericEq number' = true) :
    (checkNumber whole rules options (.number number)).Related (Value.Equates Eq)
      (checkNumber whole rules options (.number number')) := by
  have units : number.toBinary64.signedUnits = number'.toBinary64.signedUnits := by
    simpa only [Number.numericEq, Binary64.numericEq, beq_iff_eq] using same
  have equal : (Value.number number).Equates Eq (.number number') := .number same
  have reason := literalReason?_congr rules.allowed equal.literal
  simp only [checkNumber, readNumeric?, Numeric.answer, Binary64.isWhole_congr units,
    boundReason?_congr rules units, reason]
  split
  · exact .rejected _ _
  · split
    · exact .rejected _ _
    · cases literalReason? rules.allowed (.number number') with
      | none => exact .accepted equal
      | some reason => exact .rejected _ _

namespace Context

variable {context : Context} {schema : Schema} {value value' : Value} {verdict verdict' : Verdict}

/-- A leaf other than the unknown schema refuses containers. -/
theorem leaf_refuses (leaf : schema.isLeaf = true) (known : schema.KnownFormats context.format)
    (other : schema ≠ .unknown) (container : value.tags? ≠ none)
    (judged : context.Judges schema value verdict) :
    ∃ violations, verdict = .rejected violations := by
  cases verdict with
  | rejected violations => exact ⟨violations, rfl⟩
  | accepted answer => exact absurd (leaf_scalar leaf known other judged) container

/-- Leaves judge equal values alike. -/
theorem leaf_related (leaf : schema.isLeaf = true) (known : schema.KnownFormats context.format)
    (same : value.Equates Eq value') (judged : context.Judges schema value verdict)
    (judged' : context.Judges schema value' verdict') :
    verdict.Related (Value.Equates Eq) verdict' := by
  have ended := leaf_settled leaf known judged 0 (.run 0)
  have ended' := leaf_settled leaf known judged' 0 (.run 0)
  by_cases any : schema = .unknown
  · subst any
    obtain rfl := Except.ok.inj ended
    obtain rfl := Except.ok.inj ended'
    exact .accepted same
  -- a scalar that is no number is the same on both sides, and answered with a scalar
  have alone : value' = value → value.tags? = none →
      verdict.Related (Value.Equates Eq) verdict' := by
    rintro rfl scalar
    obtain rfl := Except.ok.inj (ended.symm.trans ended')
    cases verdict with
    | rejected violations => exact .rejected _ _
    | accepted answer =>
      apply Verdict.Related.accepted
      apply Value.Equates.refl_of_scalar
      rcases leaf_answer leaf known judged with rfl | ⟨bare, _⟩
      · exact scalar
      · exact bare
  have refused : value.tags? ≠ none → value'.tags? ≠ none →
      verdict.Related (Value.Equates Eq) verdict' := by
    intro container container'
    obtain ⟨violations, rfl⟩ := leaf_refuses leaf known any container judged
    obtain ⟨violations', rfl⟩ := leaf_refuses leaf known any container' judged'
    exact .rejected _ _
  cases same with
  | undefined => exact alone rfl rfl
  | null => exact alone rfl rfl
  | bool value => exact alone rfl rfl
  | string value => exact alone rfl rfl
  | array => exact refused nofun nofun
  | object => exact refused nofun nofun
  | @number number number' same =>
    cases schema with
    | integer node rules =>
      obtain rfl := Except.ok.inj ended
      obtain rfl := Except.ok.inj ended'
      exact checkNumber_related _ _ _ same
    | number node rules =>
      obtain rfl := Except.ok.inj ended
      obtain rfl := Except.ok.inj ended'
      exact checkNumber_related _ _ _ same
    | unknown => exact absurd rfl any
    | void | null | boolean node rules | string node rules =>
      obtain rfl := Except.ok.inj ended
      obtain rfl := Except.ok.inj ended'
      exact .rejected _ _
    | _ => cases leaf

/-! ## Whole schemas -/

/-- What equal objects are answered with is equal when their parts are answered alike. -/
theorem fields_related {judges judges' : Schema → Value → Verdict → Prop} {wire drop : Bool}
    {properties : List (Property Schema)} {additional : Additional Schema}
    {content content' : Identity} {fields fields' answers answers' : Fields Value}
    {tags tags' : Tags} (concord : Concord (Value.Equates Eq) judges judges')
    (names : (Property.names properties).Nodup)
    (same : (Value.object content fields tags).Equates Eq (.object content' fields' tags'))
    (step : Validator.FieldsStep judges wire drop properties additional fields answers)
    (step' : Validator.FieldsStep judges' wire drop properties additional fields' answers')
    (place place' : Identity) (tagged : Tags) :
    (Value.object place answers tagged).Equates Eq (.object place' answers' tagged) := by
  have congruence := Value.congruence_equates
  have back := congruence.symm same
  have distinct : answers.Distinct := step.distinct names same.keyed.here
  have distinct' : answers'.Distinct := step'.distinct names back.keyed.here
  have forth : ∀ {key : String}, key ∈ answers.keys → key ∈ answers'.keys := by
    intro key member
    obtain ⟨answer, inside⟩ := Fields.exists_mem_of_mem_keys member
    obtain ⟨answer', inside', _⟩ := step.mate congruence concord same step' inside
    exact Fields.mem_keys inside'
  refine .object rfl distinct distinct' (fun key => ⟨forth, fun member => ?_⟩) (fun key => ?_)
  · obtain ⟨answer', inside'⟩ := Fields.exists_mem_of_mem_keys member
    obtain ⟨answer, inside, _⟩ :=
      step'.mate congruence (concord.symm congruence) back step inside'
    exact Fields.mem_keys inside
  · by_cases member : key ∈ answers.keys
    · obtain ⟨answer, inside⟩ := Fields.exists_mem_of_mem_keys member
      obtain ⟨answer', inside', alike⟩ := step.mate congruence concord same step' inside
      rwa [Fields.lookup_of_mem distinct inside, Fields.lookup_of_mem distinct' inside']
    · have absent : key ∉ answers'.keys := by
        intro member'
        obtain ⟨answer', inside'⟩ := Fields.exists_mem_of_mem_keys member'
        obtain ⟨answer, inside, _⟩ :=
          step'.mate congruence (concord.symm congruence) back step inside'
        exact member (Fields.mem_keys inside)
      rw [Fields.lookup, Fields.lookup, Fields.get?_eq_none_iff.mpr member,
        Fields.get?_eq_none_iff.mpr absent]
      exact .undefined

/-- Validation respects equality under equal tags. -/
theorem respects_equates : context.Respects (Value.Equates Eq) where
  leaf leaf sound := leaf_related leaf sound.here.knownFormats
  fields := fields_related

/-- Equal values that carry the same tags are judged alike: both are accepted, with equal answers
that carry the same tags, or both are refused. When the schema is grounded, both are judged, so one
is accepted exactly when the other is. -/
theorem equal_judged_alike (sound : context.Sound schema) (keyed : value.Throughout Value.Keyed)
    (keyed' : value'.Throughout Value.Keyed) (equal : value.eq value' = true)
    (tagged : value.TaggedAlike value') :
    (∀ verdict verdict', context.Judges schema value verdict →
      context.Judges schema value' verdict' →
      (∃ answer answer', verdict = .accepted answer ∧ verdict' = .accepted answer' ∧
          answer.eq answer' = true ∧ answer.TaggedAlike answer') ∨
        ∃ violations violations', verdict = .rejected violations ∧
          verdict' = .rejected violations') ∧
    (schema.Grounded context.definitions →
      (context.settings.allowConvertForArrayType = true →
        schema.Anchored context.definitions ∨ value.Throughout (fun part => part.isLone = false)) →
      ((∃ answer, context.Judges schema value (.accepted answer)) ↔
        ∃ answer', context.Judges schema value' (.accepted answer'))) := by
  have same := (Value.equates_eq_iff keyed keyed').mpr ⟨equal, tagged⟩
  have related : ∀ {verdict verdict' : Verdict}, context.Judges schema value verdict →
      context.Judges schema value' verdict' → verdict.Related (Value.Equates Eq) verdict' :=
    judges_related Value.congruence_equates respects_equates sound same
  constructor
  · intro verdict verdict' judged judged'
    cases related judged judged' with
    | accepted same => exact .inl ⟨_, _, rfl, rfl, same.eq, same.taggedAlike⟩
    | rejected violations violations' => exact .inr ⟨violations, violations', rfl, rfl⟩
  · intro grounded spared
    have spared' : context.settings.allowConvertForArrayType = true →
        schema.Anchored context.definitions ∨
          value'.Throughout (fun part => part.isLone = false) :=
      fun taken => (spared taken).imp_right same.throughout_isLone
    constructor
    · rintro ⟨answer, judged⟩
      obtain ⟨verdict', judged'⟩ := exists_judged sound grounded spared'
      cases related judged judged' with
      | accepted same => exact ⟨_, judged'⟩
    · rintro ⟨answer', judged'⟩
      obtain ⟨verdict, judged⟩ := exists_judged sound grounded spared
      cases related judged judged' with
      | accepted same => exact ⟨_, judged⟩

end Context

namespace Shapes

/-- The group of one circle with its fields in another order, and the radius given as a float. -/
def redrawn : Value :=
  .object (.run 4) [("members", .array (.run 5) [
    .object (.run 6) [("kind", .string "circle"), ("radius", .number (.float radius.toBinary64))]
      []] []), ("kind", .string "group")] []

/-- Both groups are judged alike, and accepted. -/
theorem redrawn_judged_alike :
    let context : Context := ⟨definitions, fun _ => none, .strict⟩
    drawing.eq redrawn = true ∧ drawing.TaggedAlike redrawn ∧
      ∃ answer answer', context.Judges shape drawing (.accepted answer) ∧
        context.Judges shape redrawn (.accepted answer') ∧ answer.eq answer' = true ∧
        answer.TaggedAlike answer' := by
  intro context
  have keyed : drawing.Throughout Value.Keyed := by
    simp [drawing, Value.Keyed, Fields.Distinct, Fields.keys]
  have keyed' : redrawn.Throughout Value.Keyed := by
    simp [redrawn, Value.Keyed, Fields.Distinct, Fields.keys]
  have equal : drawing.eq redrawn = true := by
    simp [drawing, redrawn, Value.eq, Value.eqFields, Value.eqItems, Fields.get?,
      Number.numericEq, Number.toBinary64, Binary64.numericEq]
  have tagged : drawing.TaggedAlike redrawn := by
    apply Value.taggedAlike_of_untagged keyed keyed' equal
    · simp [drawing, Value.tags, Value.tags?]
    · simp [redrawn, Value.tags, Value.tags?]
  obtain ⟨alike, accepted⟩ := Context.equal_judged_alike
    (Shapes.sound (fun _ => none) Options.strict (.head _)) keyed keyed' equal tagged
  obtain ⟨answer, ended⟩ : ∃ answer, context.attempt 20 shape (.run 3) drawing =
      .ok (.accepted answer) := ⟨_, rfl⟩
  have judged : context.Judges shape drawing (.accepted answer) := ⟨20, .run 3, ended⟩
  have closed : ¬ context.settings.allowConvertForArrayType = true := Bool.false_ne_true
  obtain ⟨answer', judged'⟩ := (accepted (grounded (.head _))
    (fun allowed => absurd allowed closed)).mp ⟨answer, judged⟩
  rcases alike _ _ judged judged' with ⟨_, _, same, same', rest⟩ | ⟨_, _, refused, _⟩
  · cases same
    cases same'
    exact ⟨equal, tagged, answer, answer', judged, judged', rest⟩
  · cases refused

end Shapes

/-! ## Equal objects of which one is judged -/

namespace Nest

/-- An object of nests. -/
def nests : Schema :=
  .object 10 [] (.each nest)

/-- An object of nests, or any object. -/
def either : Schema :=
  .union 9 [nests, .object 11 [] .keep]

/-- An object whose first field no nest accepts. -/
def early : Value :=
  .object (.run 0) [("b", .null), ("a", .string "x")] []

/-- The object with its fields in another order. -/
def late : Value :=
  .object (.run 0) [("a", .string "x"), ("b", .null)] []

/-- A nest never judges the string that it comes to first. -/
theorem nests_exhausted (fuel : Nat) (place : Identity) :
    context.attempt fuel nests place late = .error .exhausted := by
  rcases fuel with _ | less
  · rfl
  have permitted : [("a", Value.string "x"), ("b", .null)].find?
      (fun entry => Validator.forbiddenKeys.contains entry.1) = none := by decide
  have order : Property.checkOrder context.definitions [] [] = [] := rfl
  rw [Context.attempt_eq_attemptAs, nests, Context.attemptAs_object, order]
  simp only [Validator.checkObject, late, permitted, Validator.checkProperties, Additional.mapBody]
  rw [Validator.checkExtras_stopped _ _ rfl rfl (attempt_exhausted rfl _ _)]

/-- Two objects are equal and one of them is accepted. The other is not judged, as the nests that it
may hold never judge its first field. -/
theorem equal_judged_apart :
    context.Sound either ∧ early.Throughout Value.Keyed ∧ late.Throughout Value.Keyed ∧
      early.eq late = true ∧ early.TaggedAlike late ∧
      (∃ answer, context.Judges either early (.accepted answer)) ∧
      ∀ fuel place verdict, context.attempt fuel either place late ≠ .ok verdict := by
  have sound : context.Sound either := by
    refine Schema.throughout_of_closed
      [either, nests, .object 11 [] .keep, nest, .array 1 nest none none] (by decide +kernel) ?_
      (.head _)
    simp [either, nests, nest, Schema.wellFormed_iff, Schema.DistinctNames, Schema.KnownFormats,
      Property.names]
  have keyed : early.Throughout Value.Keyed := by
    simp [early, Value.Keyed, Fields.Distinct, Fields.keys]
  have keyed' : late.Throughout Value.Keyed := by
    simp [late, Value.Keyed, Fields.Distinct, Fields.keys]
  have equal : early.eq late = true := by
    simp [early, late, Value.eq, Value.eqFields, Fields.get?]
  have tagged : early.TaggedAlike late := by
    apply Value.taggedAlike_of_untagged keyed keyed' equal
    · simp [early, Value.tags, Value.tags?]
    · simp [late, Value.tags, Value.tags?]
  obtain ⟨answer, ended⟩ : ∃ answer, context.attempt 10 either (.run 1) early =
      .ok (.accepted answer) := ⟨_, rfl⟩
  refine ⟨sound, keyed, keyed', equal, tagged, ⟨answer, 10, .run 1, ended⟩, ?_⟩
  intro fuel place verdict ended
  obtain ⟨less, rfl, verdicts, judged, rfl⟩ := Context.trial_ended
    (show Validator.run context.surroundings fuel (.oneOf (context.makers
      [nests, .object 11 [] .keep])) context.settings place late = .ok verdict from ended)
  cases judged with
  | cons judged _ =>
  obtain ⟨origin, ended⟩ := judged
  rw [nests_exhausted] at ended
  cases ended

end Nest

end Conform
