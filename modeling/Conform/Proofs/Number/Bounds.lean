import Conform.Proofs.Conformance.Scalars
import Conform.Proofs.Number.Rounding

/-!
# Bounds on exact integers

A bound is a binary64 number, and an integer is compared with it by its reading. Rounding to the
nearest keeps the order: no bound lies strictly between an integer and its reading, for it would be
nearer. So the comparison is that of the mathematical numbers, unless the bound is the reading
itself, which then counts as the integer.
-/

namespace Conform

open Binary64

/-- The integer is within the bounds as mathematical numbers, where a bound that denotes `reading`
counts as equal to the integer. -/
structure NumberRules.Bounds (rules : NumberRules) (value : Int) (reading : ℚ) : Prop where
  minimum : ∀ limit, rules.minimum = some limit → limit.toRat ≤ value ∨ limit.toRat = reading
  maximum : ∀ limit, rules.maximum = some limit → (value : ℚ) ≤ limit.toRat ∨ limit.toRat = reading
  exclusiveMinimum : ∀ limit, rules.exclusiveMinimum = some limit →
    limit.toRat < value ∧ limit.toRat ≠ reading
  exclusiveMaximum : ∀ limit, rules.exclusiveMaximum = some limit →
    (value : ℚ) < limit.toRat ∧ limit.toRat ≠ reading

section

variable {rules : NumberRules} {value : Int}

/-- A node without literals admits the reading of an integer exactly when the integer is within
the bounds. -/
theorem admits_ofInt_iff (free : rules.allowed = []) (bounded : value.natAbs < Nat.pow 2 128) :
    rules.Admits (ofInt value bounded) ↔ rules.Bounds value (ofInt value bounded).toRat := by
  constructor
  · rintro ⟨minimum, maximum, exclusiveMinimum, exclusiveMaximum, _⟩
    exact
      { minimum := fun limit bound => (le_ofInt_iff limit).mp (minimum limit bound)
        maximum := fun limit bound => (ofInt_le_iff limit).mp (maximum limit bound)
        exclusiveMinimum := fun limit bound =>
          (lt_ofInt_iff limit).mp (exclusiveMinimum limit bound)
        exclusiveMaximum := fun limit bound =>
          (ofInt_lt_iff limit).mp (exclusiveMaximum limit bound) }
  · rintro ⟨minimum, maximum, exclusiveMinimum, exclusiveMaximum⟩
    exact
      { minimum := fun limit bound => (le_ofInt_iff limit).mpr (minimum limit bound)
        maximum := fun limit bound => (ofInt_le_iff limit).mpr (maximum limit bound)
        exclusiveMinimum := fun limit bound =>
          (lt_ofInt_iff limit).mpr (exclusiveMinimum limit bound)
        exclusiveMaximum := fun limit bound =>
          (ofInt_lt_iff limit).mpr (exclusiveMaximum limit bound)
        allowed := .inl free }

/-- The check of a number answers the number itself or gives a reason. -/
theorem checkNumber_number (whole : Bool) (rules : NumberRules) (options : Options)
    (number : Number) :
    checkNumber whole rules options (.number number) = .accepted (.number number) ∨
      ∃ reason, checkNumber whole rules options (.number number) = .refuse reason := by
  simp only [checkNumber, readNumeric?]
  split
  · exact .inr ⟨_, rfl⟩
  · split
    · exact .inr ⟨_, rfl⟩
    · simp only [Numeric.answer, Verdict.unless]
      split
      · exact .inl rfl
      · exact .inr ⟨_, rfl⟩

/-- An integer node without literals accepts an exact integer, as it is, exactly when the integer
is within its bounds as mathematical numbers, where a bound that is the reading of the integer
counts as equal to it; else it refuses the integer. The reading is the binary64 number nearest to
the integer. -/
theorem Context.integer_bounds_judged (context : Context) (node : Nat)
    (free : rules.allowed = []) (fits : Integral value) :
    let number := Number.integer value fits
    let reading := number.toBinary64.toRat
    (∀ other : Binary64, |reading - value| ≤ |other.toRat - value|) ∧
      ∃ verdict,
        (∀ fuel place,
          context.attempt (fuel + 1) (.integer node rules) place (.number number) = .ok verdict) ∧
        (verdict = .accepted (.number number) ∨ ∃ reason, verdict = .refuse reason) ∧
        (verdict = .accepted (.number number) ↔ rules.Bounds value reading) := by
  intro number reading
  refine ⟨ofInt_closest (Integral.natAbs_lt fits),
    checkNumber true rules context.settings (.number number), fun fuel place => rfl,
    checkNumber_number true rules context.settings number, ?_⟩
  have accepts := checkNumber_number_accepts true rules context.settings number
  have whole : number.toBinary64.isWhole = true := isWhole_ofInt (Integral.natAbs_lt fits)
  have bounds : rules.Admits number.toBinary64 ↔ rules.Bounds value reading :=
    admits_ofInt_iff free (Integral.natAbs_lt fits)
  rw [← bounds]
  obtain same | ⟨reason, refused⟩ := checkNumber_number true rules context.settings number
  · rw [same] at accepts ⊢
    exact iff_of_true rfl (accepts.mp rfl).2
  · rw [refused] at accepts ⊢
    refine iff_of_false (by simp [Verdict.refuse]) (fun admits => ?_)
    exact absurd (accepts.mpr ⟨fun _ => whole, admits⟩)
      (by simp [Verdict.refuse, Verdict.isAccepted])

end

/-! ## Serials beyond the binary64 integers -/

namespace Serials

/-- The last serial up to which every integer is a binary64 number. -/
def latest : Binary64 :=
  .ofInt 9007199254740992 (by decide +kernel)

/-- The serial after it. -/
def next : Number :=
  .integer 9007199254740993 (by decide)

/-- What judges serials. -/
def context : Context :=
  ⟨fun _ => .unknown, fun _ => none, .strict⟩

/-- Serials up to the latest. -/
def known : NumberRules :=
  { maximum := some latest }

/-- Serials after the latest. -/
def unknown : NumberRules :=
  { exclusiveMinimum := some latest }

/-- The serial after the latest is accepted among those up to it, and refused among those
after it. -/
theorem next_misjudged :
    latest.toRat < (9007199254740993 : Int) ∧
      context.Judges (.integer 0 known) (.number next) (.accepted (.number next)) ∧
      context.Judges (.integer 1 unknown) (.number next) (.refuse (.notAbove latest)) := by
  have later : latest.toRat < (9007199254740993 : Int) := by
    rw [← not_le, intCast_le_toRat_iff]
    decide +kernel
  have whole : next.toBinary64.isWhole = true := by decide +kernel
  have below : latest.lt next.toBinary64 = false := by decide +kernel
  have level : next.toBinary64.le latest = true := by decide +kernel
  refine ⟨later, ⟨1, .run 0, congrArg Except.ok ?_⟩, 1, .run 0, congrArg Except.ok ?_⟩
  · simp [checkNumber, readNumeric?, whole, boundReason?, known, below, literalReason?,
      Verdict.unless, Numeric.answer]
  · simp [checkNumber, readNumeric?, whole, boundReason?, unknown, level]

/-- Two serials on, between the binary64 numbers two before and one after it. -/
def later : Number :=
  .integer 9007199254740995 (by decide)

/-- From the number before that serial up to the number after it, with the open bounds one
number further on each side. -/
def window : NumberRules :=
  { minimum := some (.ofInt 9007199254740994 (by decide +kernel))
    maximum := some (.ofInt 9007199254740996 (by decide +kernel))
    exclusiveMinimum := some (.ofInt 9007199254740992 (by decide +kernel))
    exclusiveMaximum := some (.ofInt 9007199254740998 (by decide +kernel)) }

/-- The serial is within the bounds of the window, the number after it being its reading. -/
theorem window_bounds : window.Bounds 9007199254740995 later.toBinary64.toRat where
  minimum := by
    rintro limit ⟨⟩
    exact .inl (toRat_le_intCast_iff.mpr (by decide +kernel))
  maximum := by
    rintro limit ⟨⟩
    exact .inl (intCast_le_toRat_iff.mpr (by decide +kernel))
  exclusiveMinimum := by
    rintro limit ⟨⟩
    rw [← not_le, intCast_le_toRat_iff, ne_eq, toRat_inj_iff]
    decide +kernel
  exclusiveMaximum := by
    rintro limit ⟨⟩
    rw [← not_le, toRat_le_intCast_iff, ne_eq, toRat_inj_iff]
    decide +kernel

/-- The serial is accepted as it is. -/
theorem later_accepted :
    context.Judges (.integer 2 window) (.number later) (.accepted (.number later)) := by
  obtain ⟨_, verdict, judged, _, accepts⟩ := context.integer_bounds_judged 2
    (rfl : window.allowed = []) (by decide : Integral 9007199254740995)
  obtain rfl := accepts.mpr window_bounds
  exact ⟨1, .run 0, judged 0 (.run 0)⟩

end Serials

end Conform
