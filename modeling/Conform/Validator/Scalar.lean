import Conform.Decimal.Reading
import Conform.Text.Blank
import Conform.Validator.Basic

/-!
# Checks of scalars

What boolean, number and string nodes ask of a value, apart from formats. A string read
as a number is answered as a number; every other scalar is answered as it came.
-/

namespace Conform

/-- The reason why a value is none of the allowed literals; an empty list allows all. -/
def literalReason? (allowed : List Literal) (value : Value) : Option Reason :=
  if allowed = [] then none
  else
    match value.literal? with
    | some literal => if literal.isIn allowed then none else some (.notAllowed allowed)
    | none => some (.notAllowed allowed)

/-- Accepts a value unless there is a reason against it. -/
def Verdict.unless (reason : Option Reason) (value : Value) : Verdict :=
  match reason with
  | none => .accepted value
  | some reason => .refuse reason

/-- The truth value read from a value. -/
def readBool? (options : Options) : Value → Option Bool
  | .bool value => some value
  | .string text =>
    if options.parseBooleanStrings then
      if text = "true" then some true else if text = "false" then some false else none
    else none
  | _ => none

/-- The check of a boolean node. -/
def checkBoolean (rules : BooleanRules) (options : Options) (value : Value) : Verdict :=
  match readBool? options value with
  | some found => .unless (literalReason? rules.allowed (.bool found)) (.bool found)
  | none => .refuse (.expected "boolean" value.kind)

/-- A number as found: the number itself unless it was read from a string, and its
binary64 reading. -/
structure Numeric where
  given : Option Number
  reading : Binary64

/-- The number read from a value. -/
def readNumeric? (options : Options) : Value → Option Numeric
  | .number number => some ⟨some number, number.toBinary64⟩
  | .string text =>
    if options.parseNumericStrings then
      match Binary64.readDecimal? (trimBlanks text.toList) with
      | some (some reading) => some ⟨none, reading⟩
      | _ => none
    else none
  | _ => none

/-- The first bound that a number breaks. -/
def boundReason? (rules : NumberRules) (number : Binary64) : Option Reason :=
  let broken (bound : Option Binary64) (breaks : Binary64 → Bool) (reason : Binary64 → Reason) :
      Option Reason :=
    match bound with
    | some limit => if breaks limit then some (reason limit) else none
    | none => none
  (broken rules.minimum (fun limit => number.lt limit) .below).orElse fun _ =>
    (broken rules.maximum (fun limit => limit.lt number) .above).orElse fun _ =>
      (broken rules.exclusiveMinimum (fun limit => number.le limit) .notAbove).orElse fun _ =>
        broken rules.exclusiveMaximum (fun limit => limit.le number) .notBelow

/-- Magnitude from which a whole number read from a string is answered as a float. -/
def wholeLimit : Nat :=
  0x8000000000000000 * Binary64.one

/-- The number to answer: as given, or from a string an exact integer where whole numbers
are asked for and it is small enough, else a float. -/
def Numeric.answer (whole : Bool) (numeric : Numeric) : Number :=
  match numeric.given with
  | some number => number
  | none =>
    if whole && numeric.reading.units < wholeLimit then
      (Number.ofInt? numeric.reading.truncate).getD (.float numeric.reading)
    else .float numeric.reading

/-- The check of a number node. -/
def checkNumber (whole : Bool) (rules : NumberRules) (options : Options) (value : Value) :
    Verdict :=
  match readNumeric? options value with
  | none => .refuse (.expected (if whole then "integer" else "number") value.kind)
  | some numeric =>
    if whole && !numeric.reading.isWhole then .refuse (.fraction numeric.reading)
    else
      match boundReason? rules numeric.reading with
      | some reason => .refuse reason
      | none =>
        let answer := Value.number (numeric.answer whole)
        .unless (literalReason? rules.allowed answer) answer

/-- The reason why a string has the wrong length or is none of the allowed literals. -/
def textReason? (rules : StringRules) (text : String) : Option Reason :=
  let length := text.length
  let short : Option Reason := match rules.minLength with
    | some least => if length < least then some (.tooShort least) else none
    | none => none
  let long : Option Reason := match rules.maxLength with
    | some most => if most < length then some (.tooLong most) else none
    | none => none
  short.orElse fun _ => long.orElse fun _ => literalReason? rules.allowed (.string text)

/-- The reason why a text does not match the pattern of a string node. -/
def patternReason? (rules : StringRules) (text : String) : Option Reason :=
  match rules.pattern with
  | some pattern => if pattern.matchesText text then none else some (.noMatch pattern.source)
  | none => none

/-- The check of a literal list. -/
def checkEnumeration (allowed : List Literal) (value : Value) : Verdict :=
  .unless (literalReason? allowed value) value

end Conform
