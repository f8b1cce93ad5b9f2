import Conform.Proofs.Attempt.Determined

/-!
# Judgements of leaves

A leaf is a schema without parts. Two nested calls are enough to judge by it, and it
answers a value as it came unless it was told to read strings as numbers or truth values.
-/

namespace Conform

/-- Strings are not read as anything else. -/
structure Options.Verbatim (options : Options) : Prop where
  numbers : options.parseNumericStrings = false
  booleans : options.parseBooleanStrings = false

/-- Values are taken as they are, under the names they have. -/
structure Options.Faithful (options : Options) : Prop where
  verbatim : options.Verbatim
  inward : options.convertFromNetwork = false
  lone : options.allowConvertForArrayType = false
  keep : decide (options.unknownField = .drop) = false

/-- Strict options are faithful. -/
theorem Options.strict_faithful : Options.strict.Faithful :=
  ⟨⟨rfl, rfl⟩, rfl, rfl, rfl⟩

/-- Values are taken as they are, under the names of the wire. -/
structure Options.Wired (options : Options) : Prop where
  verbatim : options.Verbatim
  wired : options.convertFromNetwork = true
  lone : options.allowConvertForArrayType = false
  keep : decide (options.unknownField = .drop) = false

/-- Options for the network read wire names. -/
theorem Options.wired_of_network {options : Options} (network : options = .fromNetwork) :
    options.Wired := by
  subst network
  exact ⟨⟨rfl, rfl⟩, rfl, rfl, rfl⟩

/-- Only a value that there is no reason against is accepted. -/
theorem Verdict.unless_accepted {reason : Option Reason} {value answer : Value}
    (accepted : Verdict.unless reason value = .accepted answer) :
    reason = none ∧ answer = value := by
  cases reason with
  | none => exact ⟨rfl, (Verdict.accepted.inj accepted).symm⟩
  | some reason => cases accepted

/-- A boolean check answers with a scalar, which is the value itself under verbatim options. -/
theorem checkBoolean_answer {rules : BooleanRules} {options : Options} {value answer : Value}
    (accepted : checkBoolean rules options value = .accepted answer) :
    answer.tags? = none ∧ (options.Verbatim → answer = value) := by
  unfold checkBoolean at accepted
  split at accepted
  · next found read =>
    obtain ⟨_, rfl⟩ := Verdict.unless_accepted accepted
    refine ⟨rfl, fun verbatim => ?_⟩
    cases value <;> simp_all [readBool?, verbatim.booleans]
  · cases accepted

/-- A number check answers with a scalar, which is the value itself under verbatim options. -/
theorem checkNumber_answer {whole : Bool} {rules : NumberRules} {options : Options}
    {value answer : Value} (accepted : checkNumber whole rules options value = .accepted answer) :
    answer.tags? = none ∧ (options.Verbatim → answer = value) := by
  unfold checkNumber at accepted
  split at accepted
  · cases accepted
  · next numeric read =>
    split at accepted
    · cases accepted
    · split at accepted
      · cases accepted
      · obtain ⟨_, rfl⟩ := Verdict.unless_accepted accepted
        refine ⟨rfl, fun verbatim => ?_⟩
        cases value <;> simp_all [readNumeric?, verbatim.numbers]
        subst read
        rfl

/-! ## Listed literals -/

/-- A value that listed literals say nothing against denotes one of them. -/
theorem isIn_of_literalReason? {allowed : List Literal} {value : Value}
    (silent : literalReason? allowed value = none) (listed : allowed ≠ []) :
    ∃ literal, value.literal? = some literal ∧ literal.isIn allowed = true := by
  unfold literalReason? at silent
  rw [if_neg listed] at silent
  split at silent
  · next literal found =>
    split at silent
    · next inside => exact ⟨literal, found, inside⟩
    · cases silent
  · cases silent

/-- What a boolean check answers is among the literals that are allowed. -/
theorem checkBoolean_literal {rules : BooleanRules} {options : Options} {value answer : Value}
    (accepted : checkBoolean rules options value = .accepted answer) :
    literalReason? rules.allowed answer = none := by
  unfold checkBoolean at accepted
  split at accepted
  · obtain ⟨silent, rfl⟩ := Verdict.unless_accepted accepted
    exact silent
  · cases accepted

/-- What a number check answers is among the literals that are allowed. -/
theorem checkNumber_literal {whole : Bool} {rules : NumberRules} {options : Options}
    {value answer : Value} (accepted : checkNumber whole rules options value = .accepted answer) :
    literalReason? rules.allowed answer = none := by
  unfold checkNumber at accepted
  split at accepted
  · cases accepted
  · split at accepted
    · cases accepted
    · split at accepted
      · cases accepted
      · obtain ⟨silent, rfl⟩ := Verdict.unless_accepted accepted
        exact silent

/-- What a string check accepts is among the literals that are allowed. -/
theorem checkString_literal {format : String → Option Validator} {check : Validator → Attempt}
    {rules : StringRules} {value answer : Value}
    (accepted : Validator.checkString format check rules value = .ok (.accepted answer)) :
    literalReason? rules.allowed value = none := by
  cases value with
  | string text =>
    simp only [Validator.checkString] at accepted
    split at accepted
    · cases accepted
    · next silent =>
      simp only [textReason?, Option.orElse_eq_or, Option.or_eq_none_iff] at silent
      exact silent.2.2
  | _ => cases accepted

namespace Context

variable {context : Context} {schema : Schema} {value answer : Value}

/-- The verdict on a string, when the format only says yes or no. -/
theorem checkString_textForm {rules : StringRules} (known : ∀ name, rules.format = some name →
      ∃ inner, Fields.get? name Formats.builtin = some inner ∧
        context.format name = some inner)
    (fuel : Nat) (place : Identity) :
    ∃ verdict, Validator.checkString context.format
        (fun inner => Validator.run context.surroundings (fuel + 1) inner context.settings place
          value) rules value = .ok verdict ∧
      ∀ answer, verdict = .accepted answer → answer = value := by
  cases value with
  | string text =>
    simp only [Validator.checkString]
    split
    · exact ⟨_, rfl, fun answer accepted => by cases accepted⟩
    · cases named : rules.format with
      | none => exact ⟨_, rfl, fun answer accepted => (Verdict.unless_accepted accepted).2⟩
      | some name =>
        obtain ⟨inner, listed, found⟩ := known name named
        obtain ⟨form, accepts, rfl⟩ := Formats.builtin_textForm listed
        have checked : Validator.run context.surroundings (fuel + 1) (.textForm form accepts)
            context.settings place (.string text) = .ok (if accepts text then
              .accepted (.string text) else .refuse (.malformed form)) := rfl
        simp only [found, checked]
        cases accepts text with
        | true => exact ⟨_, rfl, fun answer accepted => (Verdict.unless_accepted accepted).2⟩
        | false => exact ⟨_, rfl, fun answer accepted => by cases accepted⟩
  | _ => exact ⟨_, rfl, fun answer accepted => by cases accepted⟩

/-- Two nested calls are enough for a leaf. -/
theorem leaf_ends (leaf : schema.isLeaf = true) (known : schema.KnownFormats context.format)
    (fuel : Nat) (place : Identity) (value : Value) :
    ∃ verdict, context.attempt (fuel + 2) schema place value = .ok verdict := by
  cases schema with
  | string node rules =>
    obtain ⟨verdict, judged, _⟩ := checkString_textForm known fuel place
    exact ⟨verdict, judged⟩
  | void => cases value <;> exact ⟨_, rfl⟩
  | null => cases value <;> exact ⟨_, rfl⟩
  | unknown => exact ⟨_, rfl⟩
  | boolean node rules => exact ⟨_, rfl⟩
  | integer node rules => exact ⟨_, rfl⟩
  | number node rules => exact ⟨_, rfl⟩
  | _ => cases leaf

/-- A leaf judges alike at every place, however many calls it may nest beyond two. -/
theorem leaf_settled {verdict : Verdict} (leaf : schema.isLeaf = true)
    (known : schema.KnownFormats context.format) (judged : context.Judges schema value verdict)
    (fuel : Nat) (place : Identity) :
    context.attempt (fuel + 2) schema place value = .ok verdict := by
  obtain ⟨other, origin, ended⟩ := judged
  obtain ⟨verdict', ended'⟩ := leaf_ends leaf known fuel place value
  have same := Value.Like.refl (fun (identity : Identity) => Eq.refl identity) value
  obtain ⟨first, reached, alike⟩ := attempt_leaf_follows (fun _ => rfl) leaf known
    (Nat.le_max_left other (fuel + 2)) origin place same verdict ended
  obtain ⟨second, reached', alike'⟩ := attempt_leaf_follows (fun _ => rfl) leaf known
    (Nat.le_max_right other (fuel + 2)) place place same verdict' ended'
  rw [reached] at reached'
  obtain rfl := Except.ok.inj reached'
  rw [ended', Verdict.eq_of_like alike', Verdict.eq_of_like alike]

/-- A leaf answers the value as it came, or with a scalar read from a string. -/
theorem leaf_answer (leaf : schema.isLeaf = true) (known : schema.KnownFormats context.format)
    (judged : context.Judges schema value (.accepted answer)) :
    answer = value ∨ (answer.tags? = none ∧ ¬ context.settings.Verbatim) := by
  have read : ∀ {verdict : Verdict}, verdict = .accepted answer →
      (verdict = .accepted answer → answer.tags? = none ∧
        (context.settings.Verbatim → answer = value)) →
      answer = value ∨ (answer.tags? = none ∧ ¬ context.settings.Verbatim) := by
    intro verdict accepted facts
    by_cases verbatim : context.settings.Verbatim
    · exact .inl ((facts accepted).2 verbatim)
    · exact .inr ⟨(facts accepted).1, verbatim⟩
  have ended := leaf_settled leaf known judged 0 (.run 0)
  cases schema with
  | unknown => exact .inl (Verdict.accepted.inj (Except.ok.inj ended)).symm
  | void =>
    cases value <;> cases ended
    exact .inl rfl
  | null =>
    cases value <;> cases ended
    exact .inl rfl
  | boolean node rules => exact read (Except.ok.inj ended) checkBoolean_answer
  | integer node rules => exact read (Except.ok.inj ended) checkNumber_answer
  | number node rules => exact read (Except.ok.inj ended) checkNumber_answer
  | string node rules =>
    obtain ⟨verdict, judged, kept⟩ := checkString_textForm known 0 (.run 0)
    exact .inl (kept answer (Except.ok.inj (judged.symm.trans ended)))
  | _ => cases leaf

/-- Only the unknown schema accepts containers among leaves. -/
theorem leaf_scalar (leaf : schema.isLeaf = true) (known : schema.KnownFormats context.format)
    (other : schema ≠ .unknown) (judged : context.Judges schema value (.accepted answer)) :
    value.tags? = none := by
  have ended := leaf_settled leaf known judged 0 (.run 0)
  cases schema with
  | unknown => exact absurd rfl other
  | _ => cases value <;> first | rfl | cases ended | cases leaf

end Context

end Conform
