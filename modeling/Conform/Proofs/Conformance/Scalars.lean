import Conform.Proofs.Attempt.Leaves
import Conform.Proofs.Conformance.Basic

/-!
# Leaves accept what conforms

The reasons that the checks of scalars give are exhaustive: a scalar node finds none
exactly when the value has what the node asks.
-/

namespace Conform

/-- A verdict with a reason refuses, and without one accepts. -/
theorem Verdict.isAccepted_unless (reason : Option Reason) (value : Value) :
    (Verdict.unless reason value).isAccepted = true ↔ reason = none := by
  cases reason with
  | none => exact ⟨fun _ => rfl, fun _ => rfl⟩
  | some reason => exact iff_of_false Bool.false_ne_true (Option.some_ne_none reason)

/-- Listed literals say nothing against what they list. -/
theorem literalReason?_eq_none_iff {allowed : List Literal} {value : Value} {literal : Literal}
    (denoted : value.literal? = some literal) :
    literalReason? allowed value = none ↔ Listed allowed literal := by
  unfold literalReason? Listed
  split
  · next none => exact ⟨fun _ => .inl none, fun _ => rfl⟩
  · next some =>
    simp only [denoted]
    split
    · next inside => exact ⟨fun _ => .inr inside, fun _ => rfl⟩
    · next outside =>
      refine iff_of_false (Option.some_ne_none _) (fun either => ?_)
      exact outside (either.resolve_left some)

namespace Binary64

/-- One number is not below another when the other is at most as great. -/
theorem not_lt_iff (left right : Binary64) : left.lt right = false ↔ right.le left = true := by
  simp [lt, le]

/-- One number is not at most as great as another when the other is below it. -/
theorem not_le_iff (left right : Binary64) : left.le right = false ↔ right.lt left = true := by
  simp [lt, le]

end Binary64

/-- A bound gives no reason when its test does not break. -/
private theorem bound_none_iff (bound : Option Binary64) (breaks : Binary64 → Bool)
    (reason : Binary64 → Reason) :
    (match bound with
      | some limit => if breaks limit then some (reason limit) else none
      | none => none) = none ↔ ∀ limit, bound = some limit → breaks limit = false := by
  cases bound <;> simp

/-- There is no reason against a number exactly when the node admits it. -/
theorem admits_iff_boundReason? {rules : NumberRules} {number : Binary64} :
    (boundReason? rules number = none ∧ Listed rules.allowed (.number number)) ↔
      rules.Admits number := by
  have minimum := bound_none_iff rules.minimum (fun limit => number.lt limit) .below
  have maximum := bound_none_iff rules.maximum (fun limit => limit.lt number) .above
  have exclusiveMinimum := bound_none_iff rules.exclusiveMinimum
    (fun limit => number.le limit) .notAbove
  have exclusiveMaximum := bound_none_iff rules.exclusiveMaximum
    (fun limit => limit.le number) .notBelow
  simp only [Binary64.not_lt_iff] at minimum maximum
  simp only [Binary64.not_le_iff] at exclusiveMinimum exclusiveMaximum
  simp only [boundReason?, Option.orElse_eq_or, Option.or_eq_none_iff]
  constructor
  · rintro ⟨⟨first, second, third, fourth⟩, allowed⟩
    exact ⟨minimum.mp first, maximum.mp second, exclusiveMinimum.mp third,
      exclusiveMaximum.mp fourth, allowed⟩
  · rintro ⟨first, second, third, fourth, allowed⟩
    exact ⟨⟨minimum.mpr first, maximum.mpr second, exclusiveMinimum.mpr third,
      exclusiveMaximum.mpr fourth⟩, allowed⟩

/-- There is no reason against a text exactly when the node admits it. -/
theorem admits_iff_textReason? {rules : StringRules} {text : String} :
    (textReason? rules text = none ∧ patternReason? rules text = none) ↔ rules.Admits text := by
  have listed : literalReason? rules.allowed (.string text) = none ↔
      Listed rules.allowed (.string text) := literalReason?_eq_none_iff rfl
  have matched : patternReason? rules text = none ↔
      ∀ pattern, rules.pattern = some pattern → pattern.matchesText text = true := by
    unfold patternReason?
    cases rules.pattern <;> simp
  simp only [textReason?, Option.orElse_eq_or, Option.or_eq_none_iff, listed, matched]
  constructor
  · rintro ⟨⟨few, many, allowed⟩, pattern⟩
    refine ⟨fun least bound => ?_, fun most bound => ?_, allowed, pattern⟩
    · simpa [bound] using few
    · simpa [bound] using many
  · rintro ⟨minLength, maxLength, allowed, pattern⟩
    refine ⟨⟨?_, ?_, allowed⟩, pattern⟩
    · cases bound : rules.minLength with
      | none => rfl
      | some least => simpa using minLength least bound
    · cases bound : rules.maxLength with
      | none => rfl
      | some most => simpa using maxLength most bound

/-- There is no reason against a count exactly when it is within bounds. -/
theorem countReason?_eq_none_iff {least most : Option Nat} {count : Nat} :
    Validator.countReason? least most count = none ↔ Counted least most count := by
  simp only [Validator.countReason?, Option.orElse_eq_or, Option.or_eq_none_iff]
  constructor
  · rintro ⟨few, many⟩
    constructor <;> rintro bound rfl
    · simpa using few
    · simpa using many
  · rintro ⟨few, many⟩
    constructor
    · cases least with
      | none => rfl
      | some bound => simpa using few bound rfl
    · cases most with
      | none => rfl
      | some bound => simpa using many bound rfl

namespace Context

variable {context : Context} {schema : Schema} {value : Value} {verdict : Verdict}

/-- A boolean check accepts the booleans that are listed, under verbatim options. -/
theorem checkBoolean_accepts {rules : BooleanRules} {options : Options}
    (verbatim : options.Verbatim) :
    (checkBoolean rules options value).isAccepted = true ↔
      ∃ found, value = .bool found ∧ Listed rules.allowed (.bool found) := by
  cases value with
  | bool found =>
    simp only [checkBoolean, readBool?, Verdict.isAccepted_unless, Value.bool.injEq,
      exists_eq_left']
    exact literalReason?_eq_none_iff rfl
  | string text =>
    simp [checkBoolean, readBool?, verbatim.booleans, Verdict.refuse, Verdict.isAccepted]
  | _ => simp [checkBoolean, readBool?, Verdict.refuse, Verdict.isAccepted]

/-- A number is accepted exactly when it is whole where it has to be and the node admits it. -/
theorem checkNumber_number_accepts (whole : Bool) (rules : NumberRules) (options : Options)
    (number : Number) :
    (checkNumber whole rules options (.number number)).isAccepted = true ↔
      (whole = true → number.toBinary64.isWhole = true) ∧ rules.Admits number.toBinary64 := by
  have listed : literalReason? rules.allowed (.number number) = none ↔
      Listed rules.allowed (.number number.toBinary64) := literalReason?_eq_none_iff rfl
  simp only [checkNumber, readNumeric?, ← admits_iff_boundReason?, ← listed]
  split
  · next fraction =>
    simp only [Bool.and_eq_true, Bool.not_eq_true'] at fraction
    simp [Verdict.refuse, Verdict.isAccepted, fraction.1, fraction.2]
  · next integral =>
    have fits : whole = true → number.toBinary64.isWhole = true := by
      simpa using integral
    split
    · next reason broken => simp [Verdict.refuse, Verdict.isAccepted, broken]
    · next kept =>
      rw [Verdict.isAccepted_unless]
      exact ⟨fun silent => ⟨fits, kept, silent⟩, fun clause => clause.2.2⟩

/-- A number check accepts the numbers that the rules admit, under verbatim options. -/
theorem checkNumber_accepts (whole : Bool) {rules : NumberRules} {options : Options}
    (verbatim : options.Verbatim) :
    (checkNumber whole rules options value).isAccepted = true ↔
      ∃ number, value = .number number ∧ (whole = true → number.toBinary64.isWhole = true) ∧
        rules.Admits number.toBinary64 := by
  cases value with
  | number number =>
    simp only [Value.number.injEq, exists_eq_left']
    exact checkNumber_number_accepts whole rules options number
  | string text =>
    simp [checkNumber, readNumeric?, verbatim.numbers, Verdict.refuse, Verdict.isAccepted]
  | _ => simp [checkNumber, readNumeric?, Verdict.refuse, Verdict.isAccepted]

/-- A string check without a format accepts the texts that the rules admit. -/
theorem checkString_accepts {rules : StringRules} (plain : rules.format = none)
    {format : String → Option Validator} {check : Validator → Attempt}
    (ended : Validator.checkString format check rules value = .ok verdict) :
    verdict.isAccepted = true ↔ ∃ text, value = .string text ∧ rules.Admits text := by
  cases value with
  | string text =>
    simp only [Value.string.injEq, exists_eq_left', ← admits_iff_textReason?]
    simp only [Validator.checkString, plain] at ended
    split at ended
    · next reason broken =>
      obtain rfl := Except.ok.inj ended
      simp [Verdict.refuse, Verdict.isAccepted, broken]
    · next kept =>
      obtain rfl := Except.ok.inj ended
      rw [Verdict.isAccepted_unless]
      exact ⟨fun silent => ⟨kept, silent⟩, And.right⟩
  | _ =>
    obtain rfl := Except.ok.inj ended
    simp [Verdict.refuse, Verdict.isAccepted]

/-- A leaf without a format accepts exactly what meets its clause. -/
theorem leaf_accepts_iff (verbatim : context.settings.Verbatim) (leaf : schema.isLeaf = true)
    (plain : ∀ node rules, schema = .string node rules → rules.format = none)
    (judged : context.Judges schema value verdict) (conforms : Schema → Value → Prop) :
    verdict.isAccepted = true ↔ schema.Clause context.definitions conforms value := by
  have known : schema.KnownFormats context.format := by
    cases schema with
    | string node rules =>
      intro name named
      rw [plain node rules rfl] at named
      cases named
    | _ => exact trivial
  have ended := leaf_settled leaf known judged 0 (.run 0)
  cases schema with
  | unknown =>
    obtain rfl := Except.ok.inj ended
    exact ⟨fun _ => trivial, fun _ => rfl⟩
  | void => cases value <;> cases ended <;> simp [Schema.Clause, Verdict.isAccepted, Verdict.refuse]
  | null => cases value <;> cases ended <;> simp [Schema.Clause, Verdict.isAccepted, Verdict.refuse]
  | boolean node rules =>
    obtain rfl := Except.ok.inj ended
    exact checkBoolean_accepts verbatim
  | integer node rules =>
    obtain rfl := Except.ok.inj ended
    simpa [Schema.Clause] using checkNumber_accepts true verbatim
  | number node rules =>
    obtain rfl := Except.ok.inj ended
    simpa [Schema.Clause] using checkNumber_accepts false verbatim
  | string node rules => exact checkString_accepts (plain node rules rfl) ended
  | _ => cases leaf

end Context

end Conform
