/-!
# Finite binary64 numbers, exactly

A finite number is a sign and a count of least units, one unit being `2⁻¹⁰⁷⁴`.
Every operation works on the exact count and rounds once, to the nearest
representable magnitude with ties to the even neighbour. No machine float is
involved, so order, equality and rounding are statements about integers.
-/

namespace Conform

/-- Distance between neighbouring magnitudes at a count of least units: one unit
up to 53 bits, then the power of two that leaves 53 significant bits. -/
def Binary64.spacing (units : Nat) : Nat :=
  Nat.pow 2 (units.log2 + 1 - 53)

/-- First count of least units that is too large for a finite number. -/
def Binary64.limit : Nat :=
  Nat.pow 2 2098

/-- A count is a magnitude when it lies on its own spacing and below the limit. -/
def Binary64.Representable (units : Nat) : Prop :=
  units % Binary64.spacing units = 0 ∧ units < Binary64.limit

instance (units : Nat) : Decidable (Binary64.Representable units) :=
  inferInstanceAs (Decidable (_ ∧ _))

/-- A finite binary64 number; the two zeros differ in their sign only. -/
structure Binary64 where
  /-- Whether the sign bit is set. -/
  negative : Bool
  /-- Magnitude in units of `2⁻¹⁰⁷⁴`. -/
  units : Nat
  /-- The magnitude is one of the format's. -/
  representable : Binary64.Representable units
  deriving DecidableEq

namespace Binary64

/-- Least units in the number one. -/
def one : Nat :=
  Nat.pow 2 1074

/-- Quotient rounded to the nearest natural number, a half to the even one. -/
def roundQuotient (numerator denominator : Nat) : Nat :=
  let whole := numerator / denominator
  let twice := 2 * (numerator % denominator)
  if twice < denominator then whole
  else if denominator < twice then whole + 1
  else if whole % 2 = 0 then whole
  else whole + 1

/-- Nearest magnitude to a quotient of least units, before the range check. -/
def nearestUnits (numerator denominator : Nat) : Nat :=
  let step := spacing (numerator / denominator)
  roundQuotient numerator (denominator * step) * step

/-- Rounding a quotient goes up by at most one. -/
theorem roundQuotient_le (numerator denominator : Nat) :
    roundQuotient numerator denominator ≤ numerator / denominator + 1 := by
  unfold roundQuotient
  dsimp only
  split
  · omega
  · split
    · omega
    · split <;> omega

/-- Powers of two are positive. -/
theorem powerOfTwo_pos (exponent : Nat) : 0 < Nat.pow 2 exponent :=
  Nat.two_pow_pos exponent

/-- The spacing of doubles is positive. -/
theorem spacing_pos (units : Nat) : 0 < spacing units :=
  powerOfTwo_pos _

/-- The rounded magnitude lies on its own spacing. -/
theorem nearestUnits_mod_spacing (numerator denominator : Nat) :
    nearestUnits numerator denominator % spacing (nearestUnits numerator denominator) = 0 := by
  unfold nearestUnits
  dsimp only
  generalize hwhole : numerator / denominator = whole
  generalize hmantissa :
    roundQuotient numerator (denominator * spacing whole) = mantissa
  have upper : mantissa ≤ whole / spacing whole + 1 := by
    have bound := roundQuotient_le numerator (denominator * spacing whole)
    rw [hmantissa, ← Nat.div_div_eq_div_mul, hwhole] at bound
    exact bound
  have fits : whole / spacing whole < 2 ^ 53 := by
    rw [Nat.div_lt_iff_lt_mul (spacing_pos whole), spacing, Nat.pow_eq, ← Nat.pow_add]
    exact Nat.lt_of_lt_of_le Nat.lt_log2_self (Nat.pow_le_pow_right (by decide) (by omega))
  have mantissa_le : mantissa ≤ 2 ^ 53 := by omega
  rcases Nat.eq_zero_or_pos mantissa with zero | positive
  · simp [zero]
  · by_cases full : mantissa = 2 ^ 53
    · rw [full, spacing, spacing, Nat.pow_eq, Nat.pow_eq, ← Nat.pow_add, Nat.log2_two_pow]
      exact Nat.mod_eq_zero_of_dvd (Nat.pow_dvd_pow 2 (by omega))
    · have small : mantissa < 2 ^ 53 := by omega
      have product : mantissa * spacing whole < 2 ^ (53 + (whole.log2 + 1 - 53)) := by
        rw [spacing, Nat.pow_eq, Nat.pow_add]
        exact Nat.mul_lt_mul_of_pos_right small (Nat.two_pow_pos _)
      have nonzero : mantissa * spacing whole ≠ 0 :=
        Nat.ne_of_gt (Nat.mul_pos positive (spacing_pos whole))
      have log : (mantissa * spacing whole).log2 < 53 + (whole.log2 + 1 - 53) :=
        (Nat.log2_lt nonzero).2 product
      have divides : spacing (mantissa * spacing whole) ∣ spacing whole :=
        Nat.pow_dvd_pow 2 (by omega)
      exact Nat.mod_eq_zero_of_dvd (Nat.dvd_trans divides (Nat.dvd_mul_left _ _))

/-- Rounding moves a positive magnitude up by less than a factor of two, plus one unit. -/
theorem nearestUnits_le (numerator denominator : Nat) :
    nearestUnits numerator denominator ≤ 2 * (numerator / denominator) + 1 := by
  unfold nearestUnits
  dsimp only
  generalize hwhole : numerator / denominator = whole
  have bound := roundQuotient_le numerator (denominator * spacing whole)
  rw [← Nat.div_div_eq_div_mul, hwhole] at bound
  have scaled := Nat.mul_le_mul_right (spacing whole) bound
  rw [Nat.add_mul, Nat.one_mul] at scaled
  have below : whole / spacing whole * spacing whole ≤ whole := Nat.div_mul_le_self _ _
  have step : spacing whole ≤ whole + 1 := by
    rw [spacing, Nat.pow_eq]
    by_cases small : whole.log2 + 1 ≤ 53
    · simp [Nat.sub_eq_zero_of_le small]
    · have nonzero : whole ≠ 0 := by
        intro zero
        simp [zero] at small
      have := Nat.log2_self_le nonzero
      have := Nat.pow_le_pow_right (n := 2) (by decide)
        (show whole.log2 + 1 - 53 ≤ whole.log2 by omega)
      omega
  omega

/-- A magnitude of the format is its own nearest one. -/
theorem nearestUnits_of_representable {units : Nat} (fits : Representable units) :
    nearestUnits units 1 = units := by
  have divides : spacing units ∣ units := Nat.dvd_of_mod_eq_zero fits.1
  have exactly : roundQuotient units (spacing units) = units / spacing units := by
    rw [roundQuotient, fits.1]
    simp [spacing_pos]
  rw [nearestUnits, Nat.div_one, Nat.one_mul, exactly, Nat.div_mul_cancel divides]

/-- The signed count of least units. -/
def signedUnits (number : Binary64) : Int :=
  if number.negative then -(number.units : Int) else number.units

/-- The magnitudes end at a positive number of least units. -/
theorem limit_pos : 0 < limit := by
  decide +kernel

/-- The number one has a positive number of least units. -/
theorem one_pos : 0 < one := by
  decide +kernel

/-- Positive zero. -/
def zero : Binary64 where
  negative := false
  units := 0
  representable := ⟨Nat.zero_mod _, limit_pos⟩

/-- A rounded count of least units, unless it is too large. -/
def ofUnits? (negative : Bool) (numerator denominator : Nat) : Option Binary64 :=
  if bounded : nearestUnits numerator denominator < limit then
    some ⟨negative, nearestUnits numerator denominator,
      nearestUnits_mod_spacing numerator denominator, bounded⟩
  else none

/-- An integer of at most 128 bits is below the limit, with room for rounding. -/
theorem nearestUnits_lt_limit {magnitude : Nat} (bounded : magnitude < Nat.pow 2 128) :
    nearestUnits (magnitude * one) 1 < limit := by
  have above := nearestUnits_le (magnitude * one) 1
  rw [Nat.div_one] at above
  have product := Nat.mul_lt_mul_of_pos_right bounded one_pos
  have room : 4 * (Nat.pow 2 128 * one) ≤ limit := by decide +kernel
  omega

/-- Integer of at most 128 bits, rounded to the nearest number. -/
def ofInt (value : Int) (bounded : value.natAbs < Nat.pow 2 128) : Binary64 where
  negative := value < 0
  units := nearestUnits (value.natAbs * one) 1
  representable := ⟨nearestUnits_mod_spacing _ _, nearestUnits_lt_limit bounded⟩

/-- Equality of values: the two zeros agree. -/
def numericEq (left right : Binary64) : Bool :=
  left.signedUnits == right.signedUnits

/-- Order of values: the two zeros agree. -/
def le (left right : Binary64) : Bool :=
  left.signedUnits ≤ right.signedUnits

/-- Strict order of values. -/
def lt (left right : Binary64) : Bool :=
  left.signedUnits < right.signedUnits

/-- Whether the number has no fraction. -/
def isWhole (number : Binary64) : Bool :=
  number.units % one == 0

/-- The number without its fraction. -/
def truncate (number : Binary64) : Int :=
  let whole : Int := (number.units / one : Nat)
  if number.negative then -whole else whole

/-- Truncation drops the least units below one, whatever the sign. -/
theorem natAbs_truncate (number : Binary64) : number.truncate.natAbs = number.units / one := by
  unfold truncate
  dsimp only
  generalize number.units / one = count
  split <;> omega

/-- A whole number has a whole count of ones. -/
theorem div_one_mul_of_isWhole {number : Binary64} (whole : number.isWhole = true) :
    number.units / one * one = number.units :=
  Nat.div_mul_cancel (Nat.dvd_of_mod_eq_zero (beq_iff_eq.mp whole))

/-- The product, rounded once; nothing when it is too large. -/
def mul? (left right : Binary64) : Option Binary64 :=
  ofUnits? (left.negative != right.negative) (left.units * right.units) one

/-- The quotient by a number other than zero, rounded once; nothing when it is
too large. -/
def div? (left right : Binary64) : Option Binary64 :=
  ofUnits? (left.negative != right.negative) (left.units * one) right.units

/-- Most decimal digits in front of or behind the point that can matter: outside
this many, a decimal is too large or rounds to zero. -/
def decimalReach : Int :=
  400

/-- The nearest number to `digits · 10 ^ exponent`; nothing when it is too large.
`length` is the count of decimal digits in `digits`. -/
def ofDecimal? (negative : Bool) (digits : Nat) (length : Nat) (exponent : Int) :
    Option Binary64 :=
  if digits = 0 then ofUnits? negative 0 1
  else if decimalReach < (length : Int) + exponent then none
  else if (length : Int) + exponent < -decimalReach then ofUnits? negative 0 1
  else if 0 ≤ exponent then ofUnits? negative (digits * Nat.pow 10 exponent.toNat * one) 1
  else ofUnits? negative (digits * one) (Nat.pow 10 (-exponent).toNat)

end Binary64

end Conform
