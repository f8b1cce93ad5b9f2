import Conform.Decimal.Shortest

/-!
# Numbers of a document

A number is an integer that fits a signed or an unsigned 64-bit word, kept
exactly, or a finite binary64 number. Comparisons go through the binary64
reading, which is exact for the second kind and rounds the first.
-/

namespace Conform

/-- An integer that fits a signed or an unsigned 64-bit word. -/
def Integral (value : Int) : Prop :=
  -0x8000000000000000 ≤ value ∧ value < 0x10000000000000000

instance (value : Int) : Decidable (Integral value) :=
  inferInstanceAs (Decidable (_ ∧ _))

/-- Integers that are stored fit 128 bits. -/
theorem Integral.natAbs_lt {value : Int} (fits : Integral value) :
    value.natAbs < Nat.pow 2 128 := by
  have small : value.natAbs ≤ Nat.pow 2 64 := by
    change value.natAbs ≤ 0x10000000000000000
    unfold Integral at fits
    omega
  exact Nat.lt_of_le_of_lt small (by decide +kernel)

/-- A number of a document. -/
inductive Number where
  /-- An exact integer. -/
  | integer (value : Int) (fits : Integral value)
  /-- A finite binary64 number. -/
  | float (value : Binary64)
  deriving DecidableEq

namespace Number

/-- The binary64 reading: exact integers are rounded to the nearest. -/
def toBinary64 : Number → Binary64
  | .integer value fits => .ofInt value (Integral.natAbs_lt fits)
  | .float value => value

/-- The exact integer, when it fits. -/
def ofInt? (value : Int) : Option Number :=
  if fits : Integral value then some (.integer value fits) else none

/-- Equality of the binary64 readings. -/
def numericEq (left right : Number) : Bool :=
  left.toBinary64.numericEq right.toBinary64

/-- Numbers inside a document: positional for exponents from -5 to 15, with a point
in every float. -/
def documentStyle : DecimalStyle where
  tieUp := false
  positional exponent := -5 ≤ exponent && exponent < 16
  pointZero := true

/-- Numbers inside a message: digits only, a point only before a fraction. -/
def messageStyle : DecimalStyle where
  tieUp := true
  positional _ := true
  pointZero := false

/-- Decimal text of an integer. -/
def integerText (value : Int) : String :=
  let digits := Nat.toDigits 10 value.natAbs
  String.ofList (if value < 0 then '-' :: digits else digits)

/-- The number as a document writes it. -/
def text : Number → String
  | .integer value _ => integerText value
  | .float value => value.text documentStyle

end Number

end Conform
