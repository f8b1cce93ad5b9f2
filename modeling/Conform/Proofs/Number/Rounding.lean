import Conform.Number
import Mathlib.Algebra.Field.Rat
import Mathlib.Algebra.Order.Field.Basic
import Mathlib.Algebra.Order.Ring.Rat
import Mathlib.Data.Int.Cast.Lemmas

/-!
# Rounding of integers

The integers of documents are denser than the binary64 numbers from `2 ^ 53` on, and are read as
the nearest of them. Magnitudes from the leading power of two of an integer on lie on its spacing
or a coarser one, and lesser ones are further away than that power, so the nearest multiple of the
spacing is the nearest number. Spacings and one are powers of two: an integer is on its own spacing
or its spacing is whole, and in both cases it is read as a whole number.
-/

namespace Conform.Binary64

/-- The rational number denoted. -/
def toRat (number : Binary64) : ℚ :=
  number.signedUnits / one

section

variable {number other : Binary64} {value : Int}

/-- The least units in one are a power of two. -/
theorem one_eq_pow : ∃ exponent, one = Nat.pow 2 exponent := by
  unfold one
  exact ⟨_, rfl⟩

/-- The least units in one are positive as a rational, too. -/
theorem one_pos_rat : (0 : ℚ) < one := by
  exact_mod_cast one_pos

/-- Doubles are ordered as their signed units are. -/
theorem toRat_le_toRat_iff :
    number.toRat ≤ other.toRat ↔ number.signedUnits ≤ other.signedUnits := by
  rw [toRat, toRat, div_le_div_iff_of_pos_right one_pos_rat, Int.cast_le]

/-- Doubles are equal as rationals when their signed units are equal. -/
theorem toRat_inj_iff : number.toRat = other.toRat ↔ number.signedUnits = other.signedUnits := by
  rw [le_antisymm_iff, toRat_le_toRat_iff, toRat_le_toRat_iff, ← le_antisymm_iff]

/-- A double is at most an integer when its units are at most those of the integer. -/
theorem toRat_le_intCast_iff : number.toRat ≤ value ↔ number.signedUnits ≤ value * one := by
  rw [toRat, div_le_iff₀ one_pos_rat]
  exact_mod_cast Iff.rfl

/-- An integer is at most a double when its units are at most those of the double. -/
theorem intCast_le_toRat_iff : (value : ℚ) ≤ number.toRat ↔ value * one ≤ number.signedUnits := by
  rw [toRat, le_div_iff₀ one_pos_rat]
  exact_mod_cast Iff.rfl

/-- A double is an integer when its units are those of the integer. -/
theorem toRat_eq_intCast_iff : number.toRat = value ↔ number.signedUnits = value * one := by
  rw [le_antisymm_iff, toRat_le_intCast_iff, intCast_le_toRat_iff, ← le_antisymm_iff]

end

/-! ## The nearest multiple -/

section

variable {denominator : Nat}

/-- Rounding moves a quotient by at most a half. -/
theorem roundQuotient_near (numerator : Nat) (positive : 0 < denominator) :
    2 * (roundQuotient numerator denominator * denominator) ≤ 2 * numerator + denominator ∧
      2 * numerator ≤ 2 * (roundQuotient numerator denominator * denominator) + denominator := by
  have parts : numerator / denominator * denominator + numerator % denominator = numerator :=
    Nat.div_add_mod' numerator denominator
  have rest : numerator % denominator < denominator := Nat.mod_lt _ positive
  have next : (numerator / denominator + 1) * denominator =
      numerator / denominator * denominator + denominator := Nat.succ_mul _ _
  unfold roundQuotient
  dsimp only
  split
  · omega
  · split
    · omega
    · split <;> omega

/-- No multiple is nearer than the rounded one. -/
theorem roundQuotient_nearest (numerator : Nat) (positive : 0 < denominator) (count : Nat) :
    ((roundQuotient numerator denominator * denominator : Nat) - numerator : Int).natAbs ≤
      ((count * denominator : Nat) - numerator : Int).natAbs := by
  obtain ⟨above, below⟩ := roundQuotient_near numerator positive
  generalize roundQuotient numerator denominator = rounded at above below
  obtain less | rfl | more := Nat.lt_trichotomy count rounded
  · have apart := Nat.mul_le_mul_right denominator (Nat.succ_le_of_lt less)
    rw [Nat.succ_mul] at apart
    omega
  · exact Nat.le_refl _
  · have apart := Nat.mul_le_mul_right denominator (Nat.succ_le_of_lt more)
    rw [Nat.succ_mul] at apart
    omega

end

/-! ## The nearest magnitude -/

section

variable {units other : Nat}

/-- Magnitudes from the leading power of two on lie on the spacing. -/
theorem spacing_dvd_of_le (fits : Representable other) (high : 2 ^ units.log2 ≤ other) :
    spacing units ∣ other := by
  have nonzero : other ≠ 0 := Nat.ne_of_gt (Nat.lt_of_lt_of_le (Nat.two_pow_pos _) high)
  have leading : units.log2 ≤ other.log2 := (Nat.le_log2 nonzero).mpr high
  exact Nat.dvd_trans (Nat.pow_dvd_pow 2 (by omega)) (Nat.dvd_of_mod_eq_zero fits.1)

/-- The leading power of two lies on the spacing. -/
theorem spacing_dvd_leading (units : Nat) : spacing units ∣ 2 ^ units.log2 :=
  Nat.pow_dvd_pow 2 (by omega)

/-- The spacing of a magnitude divides what the magnitude is rounded to. -/
theorem spacing_dvd_nearestUnits (units : Nat) : spacing units ∣ nearestUnits units 1 := by
  rw [nearestUnits, Nat.div_one, Nat.one_mul]
  exact Nat.dvd_mul_left _ _

/-- No multiple of the spacing is nearer than the nearest magnitude. -/
theorem nearestUnits_nearest_of_dvd (divides : spacing units ∣ other) :
    ((nearestUnits units 1 : Int) - units).natAbs ≤ ((other : Int) - units).natAbs := by
  obtain ⟨count, rfl⟩ := divides
  rw [nearestUnits, Nat.div_one, Nat.one_mul, Nat.mul_comm (spacing units) count]
  exact roundQuotient_nearest units (spacing_pos units) count

/-- No magnitude is nearer than the nearest. -/
theorem nearestUnits_nearest (units : Nat) (fits : Representable other) :
    ((nearestUnits units 1 : Int) - units).natAbs ≤ ((other : Int) - units).natAbs := by
  by_cases high : 2 ^ units.log2 ≤ other
  · exact nearestUnits_nearest_of_dvd (spacing_dvd_of_le fits high)
  · by_cases zero : units = 0
    · subst zero
      exact nearestUnits_nearest_of_dvd (Nat.one_dvd other)
    · -- a lesser magnitude is further away than the leading power of two
      have leading : 2 ^ units.log2 ≤ units := Nat.log2_self_le zero
      have near := nearestUnits_nearest_of_dvd (spacing_dvd_leading units)
      omega

end

/-! ## Integers -/

section

variable {value : Int} {bounded : value.natAbs < Nat.pow 2 128}

/-- The units of a converted integer are those nearest to it, with its sign. -/
theorem signedUnits_ofInt :
    (ofInt value bounded).signedUnits =
      if value < 0 then -(nearestUnits (value.natAbs * one) 1 : Int)
      else nearestUnits (value.natAbs * one) 1 := by
  simp [signedUnits, ofInt]

/-- The units of a negative integer are those of its absolute value, negated. -/
theorem scaled_of_neg (sign : value < 0) : value * one = -((value.natAbs * one : Nat) : Int) := by
  rw [Int.natCast_mul, ← Int.neg_mul, Int.ofNat_natAbs_of_nonpos (Int.le_of_lt sign), neg_neg]

/-- The units of any other integer are those of its absolute value. -/
theorem scaled_of_nonneg (sign : 0 ≤ value) : value * one = ((value.natAbs * one : Nat) : Int) := by
  rw [Int.natCast_mul, Int.natAbs_of_nonneg sign]

/-- No number is nearer to an integer than the one that it is read as. -/
theorem ofInt_nearest (bounded : value.natAbs < Nat.pow 2 128) (number : Binary64) :
    ((ofInt value bounded).signedUnits - value * one).natAbs ≤
      (number.signedUnits - value * one).natAbs := by
  have near := nearestUnits_nearest (value.natAbs * one) number.representable
  rw [signedUnits_ofInt]
  -- a number of the other sign is further away than the one of this sign
  have signed : number.signedUnits = number.units ∨ number.signedUnits = -(number.units : Int) := by
    unfold signedUnits
    split
    · exact .inr rfl
    · exact .inl rfl
  split <;> rename_i sign
  · rw [scaled_of_neg sign]
    omega
  · rw [scaled_of_nonneg (Int.not_lt.mp sign)]
    omega

/-- What an integer is read as is the nearest number. -/
theorem ofInt_closest (bounded : value.natAbs < Nat.pow 2 128) (number : Binary64) :
    |(ofInt value bounded).toRat - value| ≤ |number.toRat - value| := by
  have distance : ∀ number : Binary64,
      |number.toRat - value| = ((number.signedUnits - value * one).natAbs : ℚ) / one := by
    intro number
    calc |number.toRat - value|
        = |((number.signedUnits - value * one : Int) : ℚ) / one| := by
          push_cast
          rw [toRat, sub_div, mul_div_cancel_right₀ _ one_pos_rat.ne']
      _ = ((number.signedUnits - value * one).natAbs : ℚ) / one := by
          rw [abs_div, abs_of_pos one_pos_rat, Nat.cast_natAbs, Int.cast_abs]
  rw [distance, distance, div_le_div_iff_of_pos_right one_pos_rat]
  exact_mod_cast ofInt_nearest bounded number

/-- A number is at most what an integer is read as when it is at most the integer or is what the
integer is read as. -/
theorem le_ofInt_iff (number : Binary64) :
    number.le (ofInt value bounded) = true ↔
      number.toRat ≤ value ∨ number.toRat = (ofInt value bounded).toRat := by
  have near := ofInt_nearest bounded number
  rw [toRat_le_intCast_iff, toRat_inj_iff, le, decide_eq_true_iff]
  omega

/-- An integer as a double is at most a number when it is so exactly, or the two are one double. -/
theorem ofInt_le_iff (number : Binary64) :
    (ofInt value bounded).le number = true ↔
      (value : ℚ) ≤ number.toRat ∨ number.toRat = (ofInt value bounded).toRat := by
  have near := ofInt_nearest bounded number
  rw [intCast_le_toRat_iff, toRat_inj_iff, le, decide_eq_true_iff]
  omega

/-- A number is below an integer as a double when it is so exactly and the two are no one double. -/
theorem lt_ofInt_iff (number : Binary64) :
    number.lt (ofInt value bounded) = true ↔
      number.toRat < value ∧ number.toRat ≠ (ofInt value bounded).toRat := by
  have near := ofInt_nearest bounded number
  rw [← not_le, intCast_le_toRat_iff, ne_eq, toRat_inj_iff, lt, decide_eq_true_iff]
  omega

/-- An integer as a double is below a number when it is so exactly and the two are no one double. -/
theorem ofInt_lt_iff (number : Binary64) :
    (ofInt value bounded).lt number = true ↔
      (value : ℚ) < number.toRat ∧ number.toRat ≠ (ofInt value bounded).toRat := by
  have near := ofInt_nearest bounded number
  rw [← not_le, toRat_le_intCast_iff, ne_eq, toRat_inj_iff, lt, decide_eq_true_iff]
  omega

/-- The nearest magnitude to an integer is whole. -/
theorem one_dvd_nearestUnits (magnitude : Nat) : one ∣ nearestUnits (magnitude * one) 1 := by
  have powers : spacing (magnitude * one) ∣ one ∨ one ∣ spacing (magnitude * one) := by
    obtain ⟨exponent, power⟩ := one_eq_pow
    rw [spacing, power]
    exact (Nat.le_total _ _).imp (Nat.pow_dvd_pow 2) (Nat.pow_dvd_pow 2)
  obtain fine | coarse := powers
  · -- the integer lies on its own spacing, so it stays where it is
    have still := nearestUnits_nearest_of_dvd (fine.mul_left magnitude)
    have same : nearestUnits (magnitude * one) 1 = magnitude * one := by omega
    rw [same]
    exact Nat.dvd_mul_left _ _
  · exact coarse.trans (spacing_dvd_nearestUnits _)

/-- What an integer is read as has no fraction. -/
theorem isWhole_ofInt (bounded : value.natAbs < Nat.pow 2 128) :
    (ofInt value bounded).isWhole = true := by
  rw [isWhole, beq_iff_eq]
  exact Nat.mod_eq_zero_of_dvd (one_dvd_nearestUnits _)

/-- Some number denotes the integer exactly when rounding does not move it. -/
theorem exists_toRat_eq_iff (bounded : value.natAbs < Nat.pow 2 128) :
    (∃ number : Binary64, number.toRat = value) ↔ (ofInt value bounded).toRat = value := by
  refine ⟨?_, fun exactly => ⟨_, exactly⟩⟩
  rintro ⟨number, exactly⟩
  have near := ofInt_nearest bounded number
  rw [toRat_eq_intCast_iff] at exactly ⊢
  omega

end

end Conform.Binary64
