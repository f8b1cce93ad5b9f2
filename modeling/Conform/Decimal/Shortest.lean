import Conform.Decimal.Binary64

/-!
# The shortest decimal of a binary64 number

A finite number other than zero stands for the interval of reals that round to
it. Its shortest decimal is the point of the coarsest decimal grid inside that
interval, the nearer one when two points of the grid fit. How an exact tie goes
and how the digits are laid out is a choice of the text that uses them, kept in
one record.
-/

namespace Conform

/-- Decimal digits `d₁d₂…` with the power of ten of the first one. -/
structure Decimal where
  /-- The digits read as one natural number. -/
  significand : Nat
  /-- Power of ten of the first digit. -/
  exponent : Int
  deriving DecidableEq, Repr

/-- How a text writes a binary64 number. -/
structure DecimalStyle where
  /-- Whether an exact tie between two shortest decimals goes up, else to the even one. -/
  tieUp : Bool
  /-- Exponents of the first digit that are written without an exponent. -/
  positional : Int → Bool
  /-- Whether a whole number ends in a point and a zero. -/
  pointZero : Bool

namespace Binary64

/-- Power of ten of the first digit of a positive magnitude. -/
def leadingExponent (units : Nat) : Int :=
  ((Nat.toDigits 10 (units * Nat.pow 10 400 / one)).length : Int) - 401

/-- The grid point chosen by `count` digits, when one lies in the rounding interval. -/
def gridPoint? (tieUp : Bool) (units : Nat) (leading : Int) (count : Nat) : Option Nat :=
  let place := leading - count + 1
  let gridScale := if 0 ≤ place then Nat.pow 10 place.toNat * (2 * one) else 2 * one
  let valueScale := if 0 ≤ place then 1 else Nat.pow 10 (-place).toNat
  let value := 2 * units * valueScale
  let low := (2 * units - spacing (units - 1)) * valueScale
  let high := (2 * units + spacing units) * valueScale
  let closed := units / spacing units % 2 == 0
  let below := value / gridScale
  let inside (point : Nat) : Bool :=
    if closed then low ≤ point * gridScale && point * gridScale ≤ high
    else low < point * gridScale && point * gridScale < high
  match inside below, inside (below + 1) with
  | true, true =>
    let down := value - below * gridScale
    let up := (below + 1) * gridScale - value
    if down < up then some below
    else if up < down then some (below + 1)
    else if tieUp || below % 2 == 1 then some (below + 1)
    else some below
  | true, false => some below
  | false, true => some (below + 1)
  | false, false => none

/-- The coarsest grid of at least `count` digits that has a point, for `fuel` grids;
the finest grid tried gives the number itself cut off. -/
def shortestFrom (tieUp : Bool) (units : Nat) (leading : Int) (count : Nat) : Nat → Decimal
  | 0 => ⟨units * Nat.pow 10 400 / one, leading⟩
  | fuel + 1 =>
    match gridPoint? tieUp units leading count with
    | some point =>
      if point = Nat.pow 10 count then ⟨1, leading + 1⟩ else ⟨point, leading⟩
    | none => shortestFrom tieUp units leading (count + 1) fuel

/-- Shortest decimal of a positive magnitude; seventeen digits always suffice. -/
def shortest (tieUp : Bool) (units : Nat) : Decimal :=
  shortestFrom tieUp units (leadingExponent units) 1 17

/-- So many zeros. -/
def zeros (count : Int) : List Char :=
  List.replicate count.toNat '0'

/-- Digits without an exponent. -/
def positionalText (style : DecimalStyle) (digits : List Char) (exponent : Int) : List Char :=
  if exponent < 0 then '0' :: '.' :: zeros (-exponent - 1) ++ digits
  else
    let front := exponent.toNat + 1
    if digits.length ≤ front then
      digits ++ zeros (front - digits.length : Nat) ++
        (if style.pointZero then ['.', '0'] else [])
    else digits.take front ++ '.' :: digits.drop front

/-- Digits with one in front of the point and a signed exponent behind. -/
def scientificText (digits : List Char) (exponent : Int) : List Char :=
  let mantissa := match digits with
    | [] => []
    | [digit] => [digit]
    | digit :: rest => digit :: '.' :: rest
  let sign := if exponent < 0 then '-' else '+'
  mantissa ++ 'e' :: sign :: Nat.toDigits 10 exponent.natAbs

/-- The number's text in a style. -/
def text (style : DecimalStyle) (number : Binary64) : String :=
  let magnitude :=
    if number.units = 0 then positionalText style ['0'] 0
    else
      let decimal := shortest style.tieUp number.units
      let digits := Nat.toDigits 10 decimal.significand
      if style.positional decimal.exponent then positionalText style digits decimal.exponent
      else scientificText digits decimal.exponent
  String.ofList (if number.negative then '-' :: magnitude else magnitude)

end Binary64

end Conform
