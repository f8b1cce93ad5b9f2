import Conform.Proofs.Attempt.Basic
import Conform.Proofs.Number.Rounding
import Mathlib.Data.List.TakeWhile

/-!
# Integers given as text

The decimal digits of an integer are read as the binary64 number nearest to it: no digit is a
blank, a mark or a letter, so all of them stand in front of the point, and there are too few of
them to be out of reach. An integer node answers with the integer that the reading denotes while
that is below `2 ^ 63`, and with the reading beyond. Either way the reading is what it goes by, so
the digits of an integer give that integer only if some binary64 number denotes it.
-/

namespace Conform

/-! ## Digits -/

/-- Digits are no blanks. -/
theorem isBlank_of_isDigit {character : Char} (digit : character.isDigit = true) :
    isBlank character = false := by
  obtain ⟨low, high⟩ := Char.isDigit_iff_toNat.mp digit
  simp only [Char.reduceToNat] at low high
  simp only [isBlank, Bool.or_eq_false_iff, Bool.and_eq_false_iff, decide_eq_false_iff_not,
    beq_eq_false_iff_ne]
  omega

/-- Digits have no case. -/
theorem toLower_of_isDigit {character : Char} (digit : character.isDigit = true) :
    character.toLower = character := by
  obtain ⟨_, high⟩ := Char.isDigit_iff_toNat.mp digit
  unfold Char.toLower
  rw [dif_neg]
  rintro ⟨upper, _⟩
  exact absurd (Nat.le_trans (UInt32.le_iff_toNat_le.mp upper) high) (by decide)

/-- A text without blanks has none at its ends. -/
theorem trimBlanks_eq_self {text : List Char}
    (solid : ∀ character ∈ text, isBlank character = false) : trimBlanks text = text := by
  have kept : ∀ part : List Char, (∀ character ∈ part, isBlank character = false) →
      part.dropWhile isBlank = part := by
    intro part solid
    rw [List.dropWhile_eq_self_iff]
    intro _
    simp [solid _ (List.getElem_mem _)]
  rw [trimBlanks, kept text solid, kept text.reverse (by simpa using solid), List.reverse_reverse]

namespace Binary64

section

variable {digits : List Char}

/-- The number of some digits is the core's. -/
theorem naturalOf_eq_ofDigitChars (digits : List Char) :
    naturalOf digits = Nat.ofDigitChars 10 digits 0 := by
  simp only [naturalOf, Nat.ofDigitChars_eq_foldl, Nat.mul_comm 10, Char.reduceToNat]

/-- The digits of a number are read as the number. -/
theorem naturalOf_toDigits (magnitude : Nat) :
    naturalOf (Nat.toDigits 10 magnitude) = magnitude := by
  rw [naturalOf_eq_ofDigitChars, Nat.ofDigitChars_ten_toDigits]

/-- Zeros in front do not count. -/
theorem naturalOf_dropWhile (digits : List Char) :
    naturalOf (digits.dropWhile (fun digit => digit == '0')) = naturalOf digits := by
  induction digits with
  | nil => rfl
  | cons digit rest same =>
    rw [List.dropWhile_cons]
    split
    · next zero =>
      obtain rfl := beq_iff_eq.mp zero
      exact same
    · rfl

/-- Digits alone stand in front of the point. -/
theorem partsOf?_digits (nonempty : digits ≠ [])
    (all : ∀ digit ∈ digits, digit.isDigit = true) : partsOf? digits = some ⟨digits, [], 0⟩ := by
  simp [partsOf?, List.takeWhile_eq_self_iff.mpr all, List.dropWhile_eq_nil_iff.mpr all, nonempty,
    exponentOf?]

/-- Words have letters. -/
theorem unboundedWords_digits (all : ∀ digit ∈ digits, digit.isDigit = true) :
    unboundedWords.contains (String.ofList (digits.map Char.toLower)) = false := by
  have same : digits.map Char.toLower = digits :=
    (List.map_congr_left fun digit member => toLower_of_isDigit (all digit member)).trans
      (List.map_id' digits)
  have letter : 'n' ∉ digits := fun member => absurd (all 'n' member) (by decide)
  rw [same, List.contains_eq_mem, decide_eq_false_iff_not]
  intro word
  simp only [unboundedWords, List.mem_cons, List.not_mem_nil, or_false] at word
  rcases word with word | word | word <;>
    exact letter (by rw [← String.toList_ofList (l := digits), word]; decide)

/-- Few digits without an exponent denote a number within reach. -/
theorem ofDecimal?_short (negative : Bool) (natural : Nat) {length : Nat}
    (short : length ≤ 400) :
    ofDecimal? negative natural length 0 = ofUnits? negative (natural * one) 1 := by
  by_cases zero : natural = 0
  · rw [ofDecimal?, if_pos zero, zero, Nat.zero_mul]
  · have near : ¬ decimalReach < (length : Int) + 0 := by
      unfold decimalReach
      omega
    have far : ¬ (length : Int) + 0 < -decimalReach := by
      unfold decimalReach
      omega
    rw [ofDecimal?, if_neg zero, if_neg near, if_neg far, if_pos (Int.le_refl 0)]
    simp

/-- Digits behind a sign or none are read as the nearest number. -/
theorem readDecimal?_digits (negative : Bool) (nonempty : digits ≠ [])
    (all : ∀ digit ∈ digits, digit.isDigit = true) (short : digits.length ≤ 400) :
    readDecimal? (if negative then '-' :: digits else digits) =
      some (ofUnits? negative (naturalOf digits * one) 1) := by
  have unsigned : readDecimal? (if negative then '-' :: digits else digits) =
      (partsOf? digits).map (fun parts =>
        let significant := (parts.whole ++ parts.fraction).dropWhile (fun digit => digit == '0')
        ofDecimal? negative (naturalOf significant) significant.length
          (parts.exponent - parts.fraction.length)) := by
    cases negative with
    | true =>
      simp only [readDecimal?, ↓reduceIte, unboundedWords_digits all, Bool.false_eq_true]
    | false =>
      obtain ⟨digit, rest, rfl⟩ := List.exists_cons_of_ne_nil nonempty
      have first := all digit (.head _)
      simp only [readDecimal?, Bool.false_eq_true, ↓reduceIte]
      split
      · next found =>
        obtain ⟨rfl, _⟩ := List.cons.inj found
        exact absurd first (by decide)
      · next found =>
        obtain ⟨rfl, _⟩ := List.cons.inj found
        exact absurd first (by decide)
      · simp only [unboundedWords_digits all, Bool.false_eq_true, ↓reduceIte]
  have significant : (digits.dropWhile (fun digit => digit == '0')).length ≤ 400 :=
    Nat.le_trans (List.dropWhile_sublist _).length_le short
  rw [unsigned, partsOf?_digits nonempty all]
  simp [naturalOf_dropWhile, ofDecimal?_short negative _ significant]

end

variable {value : Int}

/-- The text of an integer is read as the number nearest to it. -/
theorem readDecimal?_integerText (bounded : value.natAbs < Nat.pow 2 128) :
    readDecimal? (trimBlanks (Number.integerText value).toList) =
      some (some (ofInt value bounded)) := by
  have all : ∀ digit ∈ Nat.toDigits 10 value.natAbs, digit.isDigit = true :=
    fun digit member => Nat.isDigit_of_mem_toDigits (by decide) (by decide) member
  have short : (Nat.toDigits 10 value.natAbs).length ≤ 400 := by
    have within : (Nat.toDigits 10 value.natAbs).length ≤ 39 := by
      rw [Nat.length_toDigits_le_iff (by decide) (by decide)]
      exact Nat.lt_trans bounded (by decide +kernel)
    omega
  have spelled : (Number.integerText value).toList =
      if decide (value < 0) then '-' :: Nat.toDigits 10 value.natAbs
      else Nat.toDigits 10 value.natAbs := by
    simp [Number.integerText]
  have solid : ∀ character ∈ (Number.integerText value).toList, isBlank character = false := by
    intro character member
    rw [spelled] at member
    split at member
    · rcases List.mem_cons.mp member with rfl | member
      · decide
      · exact isBlank_of_isDigit (all character member)
    · exact isBlank_of_isDigit (all character member)
  rw [trimBlanks_eq_self solid, spelled,
    readDecimal?_digits (decide (value < 0)) Nat.toDigits_ne_nil all short, naturalOf_toDigits,
    ofUnits?, dif_pos (nearestUnits_lt_limit bounded)]
  rfl

/-- A whole number denotes the integer that is left without a fraction. -/
theorem truncate_of_isWhole {number : Binary64} (whole : number.isWhole = true) :
    (number.truncate : ℚ) = number.toRat := by
  have units : ((number.units / one : Nat) : Int) * one = number.units := by
    exact_mod_cast div_one_mul_of_isWhole whole
  have scaled : number.signedUnits = number.truncate * one := by
    unfold signedUnits truncate
    dsimp only
    split
    · rw [Int.neg_mul, units]
    · rw [units]
  exact (toRat_eq_intCast_iff.mpr scaled).symm

/-- The absolute value of a double is below a bound when its least units are. -/
theorem abs_toRat_lt_iff {number : Binary64} {bound : Nat} :
    |number.toRat| < bound ↔ number.units < bound * one := by
  have magnitude : |number.signedUnits| = number.units := by
    unfold signedUnits
    split
    · rw [abs_neg, Nat.abs_cast]
    · rw [Nat.abs_cast]
  rw [toRat, abs_div, abs_of_pos one_pos_rat, ← Int.cast_abs, magnitude, Int.cast_natCast,
    div_lt_iff₀ one_pos_rat]
  exact_mod_cast Iff.rfl

end Binary64

/-! ## Answers -/

section

variable {reading : Binary64}

/-- The limit as a number. -/
theorem units_lt_wholeLimit_iff : reading.units < wholeLimit ↔ |reading.toRat| < 2 ^ 63 := by
  have bound : ((0x8000000000000000 : Nat) : ℚ) = 2 ^ 63 := by
    exact_mod_cast (rfl : (0x8000000000000000 : Nat) = 2 ^ 63)
  rw [wholeLimit, ← Binary64.abs_toRat_lt_iff, bound]

/-- A whole reading below the limit is answered as the integer that it denotes. -/
theorem Numeric.answer_of_lt (whole : reading.isWhole = true) (small : |reading.toRat| < 2 ^ 63) :
    ∃ value fits, Numeric.answer true ⟨none, reading⟩ = .integer value fits ∧
      (value : ℚ) = reading.toRat := by
  have below : reading.units < wholeLimit := units_lt_wholeLimit_iff.mpr small
  have magnitude : reading.truncate.natAbs < 0x8000000000000000 := by
    rw [Binary64.natAbs_truncate, Nat.div_lt_iff_lt_mul Binary64.one_pos]
    exact below
  have fits : Integral reading.truncate := by
    unfold Integral
    omega
  refine ⟨reading.truncate, fits, ?_, Binary64.truncate_of_isWhole whole⟩
  simp [Numeric.answer, below, Number.ofInt?, fits]

/-- A reading from the limit on is answered as it is. -/
theorem Numeric.answer_of_le (large : 2 ^ 63 ≤ |reading.toRat|) :
    Numeric.answer true ⟨none, reading⟩ = .float reading := by
  have beyond : ¬ reading.units < wholeLimit := mt units_lt_wholeLimit_iff.mp (not_lt.mpr large)
  simp [Numeric.answer, beyond]

end

/-- A number node without bounds and literals answers with what was read. -/
theorem checkNumber_free {whole : Bool} {options : Options} {value : Value} (numeric : Numeric)
    (read : readNumeric? options value = some numeric)
    (fits : whole = true → numeric.reading.isWhole = true) :
    checkNumber whole {} options value = .accepted (.number (numeric.answer whole)) := by
  have integral : (whole && !numeric.reading.isWhole) = false := by
    cases whole with
    | false => rfl
    | true => rw [fits rfl]; rfl
  have kept : boundReason? {} numeric.reading = none := rfl
  simp [checkNumber, read, integral, kept, literalReason?, Verdict.unless]

namespace Context

variable {value : Int} (context : Context) (node : Nat)

/-- An integer node without bounds and literals accepts an exact integer as it is. -/
theorem attempt_integer (fits : Integral value) (fuel : Nat) (place : Identity) :
    context.attempt (fuel + 1) (.integer node {}) place (.number (.integer value fits)) =
      .ok (.accepted (.number (.integer value fits))) :=
  congrArg Except.ok (checkNumber_free
    ⟨some (.integer value fits), .ofInt value (Integral.natAbs_lt fits)⟩ rfl
    fun _ => Binary64.isWhole_ofInt (Integral.natAbs_lt fits))

/-- An integer node without bounds and literals accepts the text of an integer, where numbers are
read from strings, and answers with what the nearest number gives. -/
theorem attempt_integerText (fits : Integral value)
    (numeric : context.settings.parseNumericStrings = true) (fuel : Nat) (place : Identity) :
    context.attempt (fuel + 1) (.integer node {}) place (.string (Number.integerText value)) =
      .ok (.accepted (.number
        (Numeric.answer true ⟨none, (Number.integer value fits).toBinary64⟩))) := by
  have read : readNumeric? context.settings (.string (Number.integerText value)) =
      some ⟨none, (Number.integer value fits).toBinary64⟩ := by
    simp only [readNumeric?, numeric, ↓reduceIte,
      Binary64.readDecimal?_integerText (Integral.natAbs_lt fits)]
    rfl
  exact congrArg Except.ok (checkNumber_free _ read
    fun _ => Binary64.isWhole_ofInt (Integral.natAbs_lt fits))

/-- An integer node without bounds and literals accepts an exact integer as it is, and the text of
the integer, where numbers are read from strings, with an answer of the same reading: the integer
that the reading denotes while that is below `2 ^ 63`, else the reading. The two answers are the
same exactly when the integer is below `2 ^ 63` and some binary64 number denotes it. -/
theorem integer_text_read (fits : Integral value)
    (numeric : context.settings.parseNumericStrings = true) :
    let number := Number.integer value fits
    let reading := number.toBinary64
    ∃ answer : Number,
      (∀ fuel place,
        context.attempt (fuel + 1) (.integer node {}) place (.number number) =
          .ok (.accepted (.number number)) ∧
        context.attempt (fuel + 1) (.integer node {}) place (.string (Number.integerText value)) =
          .ok (.accepted (.number answer))) ∧
      (|reading.toRat| < 2 ^ 63 →
        ∃ whole fits', answer = .integer whole fits' ∧ (whole : ℚ) = reading.toRat) ∧
      (2 ^ 63 ≤ |reading.toRat| → answer = .float reading) ∧
      (answer = number ↔ |value| < 2 ^ 63 ∧ ∃ exactly : Binary64, exactly.toRat = value) := by
  intro number reading
  have whole : reading.isWhole = true := Binary64.isWhole_ofInt (Integral.natAbs_lt fits)
  refine ⟨Numeric.answer true ⟨none, reading⟩, fun fuel place =>
    ⟨attempt_integer context node fits fuel place,
      attempt_integerText context node fits numeric fuel place⟩,
    Numeric.answer_of_lt whole, Numeric.answer_of_le, ?_⟩
  rw [Binary64.exists_toRat_eq_iff (Integral.natAbs_lt fits)]
  -- an integer that its reading denotes is below the limit when the reading is
  have near : reading.toRat = value → (|reading.toRat| < 2 ^ 63 ↔ |value| < 2 ^ 63) := by
    intro exactly
    rw [exactly]
    exact_mod_cast Iff.rfl
  by_cases small : |reading.toRat| < 2 ^ 63
  · obtain ⟨denoted, fits', answer, denotes⟩ := Numeric.answer_of_lt whole small
    rw [answer, Number.integer.injEq, ← Int.cast_inj (α := ℚ), denotes]
    exact ⟨fun exactly => ⟨(near exactly).mp small, exactly⟩, And.right⟩
  · rw [Numeric.answer_of_le (not_lt.mp small)]
    exact iff_of_false nofun fun ⟨below, exactly⟩ => small ((near exactly).mpr below)

end Context

/-! ## Balances as digits -/

namespace Balances

/-- What judges balances that arrive as strings. -/
def context : Context :=
  ⟨fun _ => .unknown, fun _ => none, .forParameters⟩

/-- A balance that is a binary64 number is read as it is. -/
theorem debt_read :
    context.Judges (.integer 0 {}) (.string "-9007199254740992")
      (.accepted (.number (.integer (-9007199254740992) (by decide)))) := by
  have text : Number.integerText (-9007199254740992) = "-9007199254740992" := by decide +kernel
  obtain ⟨answer, judged, _, _, same⟩ := context.integer_text_read 0
    (by decide : Integral (-9007199254740992)) rfl
  obtain rfl := same.mpr ⟨by decide, .ofInt (-9007199254740992) (by decide +kernel),
    Binary64.toRat_eq_intCast_iff.mpr (by decide +kernel)⟩
  exact ⟨1, .run 0, text ▸ (judged 0 (.run 0)).2⟩

/-- A balance between two binary64 numbers. -/
def between : Number :=
  .integer 9007199254740997 (by decide)

/-- The least balance, a binary64 number. -/
def least : Number :=
  .integer (-9223372036854775808) (by decide)

/-- Both balances are kept as numbers, but the digits of the one give the balance before it, and
those of the other a float. -/
theorem digits_misread :
    context.Judges (.integer 0 {}) (.number between) (.accepted (.number between)) ∧
      context.Judges (.integer 0 {}) (.string "9007199254740997")
        (.accepted (.number (.integer 9007199254740996 (by decide)))) ∧
      context.Judges (.integer 0 {}) (.number least) (.accepted (.number least)) ∧
      context.Judges (.integer 0 {}) (.string "-9223372036854775808")
        (.accepted (.number (.float least.toBinary64))) := by
  have kept : ∀ value fits, context.Judges (.integer 0 {}) (.number (.integer value fits))
      (.accepted (.number (.integer value fits))) :=
    fun value fits => ⟨1, .run 0, context.attempt_integer 0 fits 0 (.run 0)⟩
  have read : ∀ value fits answer,
      Numeric.answer true ⟨none, (Number.integer value fits).toBinary64⟩ = answer →
      context.Judges (.integer 0 {}) (.string (Number.integerText value))
        (.accepted (.number answer)) := by
    rintro value fits _ rfl
    exact ⟨1, .run 0, context.attempt_integerText 0 fits rfl 0 (.run 0)⟩
  have digits : Number.integerText 9007199254740997 = "9007199254740997" ∧
      Number.integerText (-9223372036854775808) = "-9223372036854775808" := by decide +kernel
  refine ⟨kept _ _, ?_, kept _ _, ?_⟩
  · rw [← digits.1]
    exact read _ (by decide) _ (by decide +kernel)
  · rw [← digits.2]
    exact read _ (by decide) _ (by decide +kernel)

end Balances

end Conform
