import Conform.Text.Blank

/-!
# Dates and times in texts

Which texts are a calendar date `year-month-day` or an RFC 3339 date-time, in the
proleptic Gregorian calendar.
-/

namespace Conform.Calendar

/-- Whether the year has a 29th of February. -/
def isLeap (year : Int) : Bool :=
  year % 4 == 0 && (year % 100 != 0 || year % 400 == 0)

/-- Days of a month. -/
def daysIn (year : Int) (month : Nat) : Nat :=
  if month = 2 then (if isLeap year then 29 else 28)
  else if month ∈ [4, 6, 9, 11] then 30
  else 31

/-- Years that have a calendar. -/
def yearLow : Int :=
  -262143

/-- Last year that has a calendar. -/
def yearHigh : Int :=
  262142

/-- Whether year, month and day name a day. -/
def isDay (year : Int) (month day : Nat) : Bool :=
  yearLow ≤ year && year ≤ yearHigh && 1 ≤ month && month ≤ 12 && 1 ≤ day &&
    day ≤ daysIn year month

/-- Natural number with these digits. -/
def digitsValue (digits : List Char) : Nat :=
  digits.foldl (fun value digit => value * 10 + (digit.toNat - 48)) 0

/-- The first digits of the input, at least `least` and at most `most`. -/
def readNumber? (least most : Nat) (input : List Char) : Option (Nat × List Char) :=
  let digits := (input.take most).takeWhile Char.isDigit
  if least ≤ digits.length then some (digitsValue digits, input.drop digits.length) else none

/-- The input behind one given character. -/
def readChar? (expected : Char) : List Char → Option (List Char)
  | character :: rest => if character = expected then some rest else none
  | [] => none

/-- A year: with a sign any count of digits, without one at most four. -/
def readYear? (input : List Char) : Option (Int × List Char) :=
  match input with
  | '-' :: rest => (readNumber? 1 rest.length rest).map (fun (year, rest) => (-(year : Int), rest))
  | '+' :: rest => (readNumber? 1 rest.length rest).map (fun (year, rest) => ((year : Int), rest))
  | _ => (readNumber? 1 4 input).map (fun (year, rest) => ((year : Int), rest))

/-- Whether the text is a date; blanks may stand in front of each number. -/
def isDate (text : String) : Bool :=
  let day := do
    let (year, rest) ← readYear? (text.toList.dropWhile isBlank)
    let rest ← readChar? '-' rest
    let (month, rest) ← readNumber? 1 2 (rest.dropWhile isBlank)
    let rest ← readChar? '-' rest
    let (day, rest) ← readNumber? 1 2 (rest.dropWhile isBlank)
    if rest = [] then some (year, month, day) else none
  match day with
  | some (year, month, day) => isDay year month day
  | none => false

/-- The offset from universal time, in range; the input behind it. -/
def readOffset? (input : List Char) : Option (List Char) :=
  match input with
  | 'Z' :: rest => some rest
  | 'z' :: rest => some rest
  | sign :: rest =>
    if sign = '+' ∨ sign = '-' ∨ sign = '−' then do
      let (hours, rest) ← readNumber? 2 2 rest
      let rest ← readChar? ':' rest
      let (minutes, rest) ← readNumber? 2 2 rest
      if hours ≤ 23 ∧ minutes ≤ 59 then some rest else none
    else none
  | [] => none

/-- The fraction of a second, if there is one; the input behind it. -/
def readFraction? (input : List Char) : Option (List Char) :=
  match input with
  | '.' :: rest => (readNumber? 1 rest.length rest).map Prod.snd
  | _ => some input

/-- Whether the text is a date-time; a second may be a leap second. -/
def isDateTime (text : String) : Bool :=
  let parts := do
    let (year, rest) ← readNumber? 4 4 text.toList
    let rest ← readChar? '-' rest
    let (month, rest) ← readNumber? 2 2 rest
    let rest ← readChar? '-' rest
    let (day, rest) ← readNumber? 2 2 rest
    let rest ← match rest with
      | mark :: rest => if mark = 'T' ∨ mark = 't' ∨ mark = ' ' then some rest else none
      | [] => none
    let (hour, rest) ← readNumber? 2 2 rest
    let rest ← readChar? ':' rest
    let (minute, rest) ← readNumber? 2 2 rest
    let rest ← readChar? ':' rest
    let (second, rest) ← readNumber? 2 2 rest
    let rest ← readFraction? rest
    let rest ← readOffset? rest
    if rest = [] then some (isDay year month day && hour ≤ 23 && minute ≤ 59 && second ≤ 60)
    else none
  parts.getD false

end Conform.Calendar
