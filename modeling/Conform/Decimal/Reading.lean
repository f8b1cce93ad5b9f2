import Conform.Decimal.Binary64

/-!
# Reading decimals as binary64 numbers

A decimal is an optional sign, digits with an optional point on either side of some
digit, and an optional exponent. It is read as the nearest binary64 number. Words for
infinity and for no number at all are decimals, too, but denote no finite number, and
so does a decimal that is too large.
-/

namespace Conform.Binary64

/-- The parts of a decimal without its sign. -/
structure DecimalParts where
  /-- Digits in front of the point. -/
  whole : List Char
  /-- Digits behind the point. -/
  fraction : List Char
  /-- The exponent. -/
  exponent : Int

/-- Natural number with these digits. -/
def naturalOf (digits : List Char) : Nat :=
  digits.foldl (fun value digit => value * 10 + (digit.toNat - 48)) 0

/-- The exponent at the end of a decimal. -/
def exponentOf? : List Char → Option Int
  | [] => some 0
  | mark :: rest =>
    if mark = 'e' ∨ mark = 'E' then
      let (negative, digits) := match rest with
        | '+' :: digits => (false, digits)
        | '-' :: digits => (true, digits)
        | digits => (false, digits)
      if digits ≠ [] ∧ digits.all Char.isDigit then
        let magnitude : Int := naturalOf digits
        some (if negative then -magnitude else magnitude)
      else none
    else none

/-- The parts of an unsigned decimal. -/
def partsOf? (text : List Char) : Option DecimalParts :=
  let whole := text.takeWhile Char.isDigit
  let rest := text.dropWhile Char.isDigit
  let (fraction, rest) := match rest with
    | '.' :: rest => (rest.takeWhile Char.isDigit, rest.dropWhile Char.isDigit)
    | _ => ([], rest)
  if whole = [] ∧ fraction = [] then none
  else (exponentOf? rest).map (fun exponent => ⟨whole, fraction, exponent⟩)

/-- Words that are read as a decimal without a finite value. -/
def unboundedWords : List String :=
  ["inf", "infinity", "nan"]

/-- The number a decimal denotes: nothing when the text is no decimal, and no finite
number when the decimal has none. -/
def readDecimal? (text : List Char) : Option (Option Binary64) :=
  let (negative, digits) := match text with
    | '-' :: rest => (true, rest)
    | '+' :: rest => (false, rest)
    | _ => (false, text)
  if unboundedWords.contains (String.ofList (digits.map Char.toLower)) then some none
  else
    (partsOf? digits).map (fun parts =>
      let significant := (parts.whole ++ parts.fraction).dropWhile (fun digit => digit == '0')
      ofDecimal? negative (naturalOf significant) significant.length
        (parts.exponent - parts.fraction.length))

end Conform.Binary64
