import Conform.Proofs.Attempt.Leaves

/-!
# Scalars are read once

A check of numbers or truth values may read them from strings. What it answers is read as it
is: a number that was read keeps its value, is whole when it was, and breaks no other bound.
So every leaf accepts its own answers and hands them back.
-/

namespace Conform

namespace Binary64

/-- Rounding the integer that a whole number is gives the number back. -/
theorem signedUnits_ofInt_truncate {number : Binary64} (whole : number.isWhole = true)
    (bounded : number.truncate.natAbs < Nat.pow 2 128) :
    (ofInt number.truncate bounded).signedUnits = number.signedUnits := by
  have divides : number.units / one * one = number.units := div_one_mul_of_isWhole whole
  have magnitude : number.truncate.natAbs = number.units / one := natAbs_truncate number
  have units : nearestUnits (number.truncate.natAbs * one) 1 = number.units := by
    rw [magnitude, divides, nearestUnits_of_representable number.representable]
  simp only [signedUnits, ofInt, units, decide_eq_true_eq]
  cases sign : number.negative with
  | false =>
    have above : ¬ number.truncate < 0 := by
      simp only [truncate, sign, Bool.false_eq_true, ↓reduceIte]
      omega
    rw [if_neg above, if_neg Bool.false_ne_true]
  | true =>
    have below : number.truncate < 0 ↔ number.units / one ≠ 0 := by
      simp only [truncate, sign, ↓reduceIte]
      omega
    by_cases zero : number.units / one = 0
    · have none : number.units = 0 := by rw [← divides, zero, Nat.zero_mul]
      simp [none]
    · rw [if_pos (below.mpr zero), if_pos rfl]

/-- Whether a number is whole depends on its value alone. -/
theorem isWhole_congr {left right : Binary64} (same : left.signedUnits = right.signedUnits) :
    left.isWhole = right.isWhole := by
  have units : ∀ number : Binary64, number.signedUnits.natAbs = number.units := by
    intro number
    unfold signedUnits
    split <;> simp
  rw [isWhole, isWhole, ← units left, ← units right, same]

end Binary64

/-- Which bound a number breaks depends on its value alone. -/
theorem boundReason?_congr (rules : NumberRules) {left right : Binary64}
    (same : left.signedUnits = right.signedUnits) :
    boundReason? rules left = boundReason? rules right := by
  unfold boundReason?
  simp only [Binary64.lt, Binary64.le, same]
  rfl

/-- The number to answer has the value that was read. -/
theorem Numeric.signedUnits_answer {whole : Bool} {numeric : Numeric}
    (given : ∀ number, numeric.given = some number → number.toBinary64 = numeric.reading)
    (fits : whole = true → numeric.reading.isWhole = true) :
    (numeric.answer whole).toBinary64.signedUnits = numeric.reading.signedUnits := by
  unfold Numeric.answer
  split
  · next number found => rw [given number found]
  · split
    · next small =>
      unfold Number.ofInt?
      split
      · next integral =>
        refine Binary64.signedUnits_ofInt_truncate (fits ?_) (Integral.natAbs_lt integral)
        simp only [Bool.and_eq_true] at small
        exact small.1
      · rfl
    · rfl

/-- A number that is given is what was read. -/
theorem readNumeric?_given {options : Options} {value : Value} {numeric : Numeric}
    (read : readNumeric? options value = some numeric) (number : Number)
    (given : numeric.given = some number) : number.toBinary64 = numeric.reading := by
  unfold readNumeric? at read
  split at read
  · cases read
    cases given
    rfl
  · split at read
    · split at read
      · cases read
        cases given
      · cases read
    · cases read
  · cases read

/-- The answer of a number node is accepted as it is, and is there with the value. -/
theorem checkNumber_again {whole : Bool} {rules : NumberRules} {options : Options}
    {value answer : Value} (accepted : checkNumber whole rules options value = .accepted answer) :
    checkNumber whole rules options answer = .accepted answer ∧
      answer.isUndefined = value.isUndefined := by
  unfold checkNumber at accepted
  split at accepted
  · cases accepted
  · next numeric read =>
    have there : value.isUndefined = false := by
      cases value <;> first | rfl | cases read
    split at accepted
    · cases accepted
    · next fits =>
      split at accepted
      · cases accepted
      · next silent =>
        obtain ⟨listed, rfl⟩ := Verdict.unless_accepted accepted
        have same : (numeric.answer whole).toBinary64.signedUnits = numeric.reading.signedUnits :=
          Numeric.signedUnits_answer (readNumeric?_given read) (by simpa using fits)
        have fits' : (whole && !(numeric.answer whole).toBinary64.isWhole) = false := by
          rw [Binary64.isWhole_congr same]
          exact Bool.eq_false_iff.mpr fits
        have silent' : boundReason? rules (numeric.answer whole).toBinary64 = none := by
          rw [boundReason?_congr rules same, silent]
        have given : (Numeric.mk (some (numeric.answer whole))
            (numeric.answer whole).toBinary64).answer whole = numeric.answer whole := rfl
        simp only [checkNumber, readNumeric?, fits', silent', given, listed, Verdict.unless,
          Bool.false_eq_true, ↓reduceIte, true_and]
        exact there.symm

/-- The answer of a boolean node is accepted as it is, and is there with the value. -/
theorem checkBoolean_again {rules : BooleanRules} {options : Options} {value answer : Value}
    (accepted : checkBoolean rules options value = .accepted answer) :
    checkBoolean rules options answer = .accepted answer ∧
      answer.isUndefined = value.isUndefined := by
  unfold checkBoolean at accepted
  split at accepted
  · next found read =>
    have there : value.isUndefined = false := by
      cases value <;> first | rfl | cases read
    obtain ⟨listed, rfl⟩ := Verdict.unless_accepted accepted
    simp only [checkBoolean, readBool?, listed, Verdict.unless, true_and]
    exact there.symm
  · cases accepted

namespace Context

variable {context : Context} {schema : Schema}

/-- A leaf accepts its answer as it is, and the answer is there with the value. -/
theorem leaf_again (leaf : schema.isLeaf = true) (known : schema.KnownFormats context.format)
    {value answer : Value} (judged : context.Judges schema value (.accepted answer)) :
    context.Judges schema answer (.accepted answer) ∧
      answer.isUndefined = value.isUndefined := by
  have ended := leaf_settled leaf known judged 0 (.run 0)
  cases schema with
  | boolean node rules =>
    exact (checkBoolean_again (Except.ok.inj ended)).imp_left
      (fun again => ⟨1, .run 0, congrArg Except.ok again⟩)
  | integer node rules =>
    exact (checkNumber_again (Except.ok.inj ended)).imp_left
      (fun again => ⟨1, .run 0, congrArg Except.ok again⟩)
  | number node rules =>
    exact (checkNumber_again (Except.ok.inj ended)).imp_left
      (fun again => ⟨1, .run 0, congrArg Except.ok again⟩)
  | string node rules =>
    obtain ⟨verdict, checked, kept⟩ := checkString_textForm known 0 (.run 0)
    obtain rfl := kept answer (Except.ok.inj (checked.symm.trans ended))
    exact ⟨judged, rfl⟩
  | unknown =>
    obtain rfl := Verdict.accepted.inj (Except.ok.inj ended)
    exact ⟨judged, rfl⟩
  | void =>
    cases value <;> cases ended
    exact ⟨judged, rfl⟩
  | null =>
    cases value <;> cases ended
    exact ⟨judged, rfl⟩
  | _ => cases leaf

end Context

end Conform
