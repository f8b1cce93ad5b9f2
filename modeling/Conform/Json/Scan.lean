import Conform.Number
import Conform.Text.Hexadecimal

/-!
# Scanning documents

The lexical parts of a document: blanks, quoted texts and numbers. Each function
reads one part at the front of the input and gives the rest.

A number without a point or an exponent is exact when it fits a 64-bit word. Any
other number takes its digits while they fit an unsigned 64-bit word, rounds that
word to binary64, and multiplies or divides it once by a power of ten (twice for
exponents below -308); digits that no longer fit count in front of the point and
are dropped behind it.
-/

namespace Conform.Json

/-- Characters between the parts of a document. -/
def isBlank (character : Char) : Bool :=
  character == ' ' || character == '\t' || character == '\n' || character == '\r'

/-- The input without leading blanks. -/
def skipBlanks (input : List Char) : List Char :=
  input.dropWhile isBlank

/-- Four hexadecimal digits. -/
def readHex4 : List Char → Option (Nat × List Char)
  | a :: b :: c :: d :: rest => do
    let high ← hexValue? a
    let next ← hexValue? b
    let third ← hexValue? c
    let low ← hexValue? d
    pure (high * 4096 + next * 256 + third * 16 + low, rest)
  | _ => none

/-- The character that a `\u` escape denotes; a pair of surrogates is one character,
a lone one is none. -/
def readUnicodeEscape (input : List Char) : Option (Char × List Char) := do
  let (unit, rest) ← readHex4 input
  if 0xDC00 ≤ unit ∧ unit ≤ 0xDFFF then none
  else if 0xD800 ≤ unit ∧ unit ≤ 0xDBFF then
    match rest with
    | '\\' :: 'u' :: second => do
      let (low, rest) ← readHex4 second
      if 0xDC00 ≤ low ∧ low ≤ 0xDFFF then
        pure (Char.ofNat (0x10000 + (unit - 0xD800) * 1024 + (low - 0xDC00)), rest)
      else none
    | _ => none
  else pure (Char.ofNat unit, rest)

/-- The character after a backslash. -/
def readEscape : List Char → Option (Char × List Char)
  | '"' :: rest => some ('"', rest)
  | '\\' :: rest => some ('\\', rest)
  | '/' :: rest => some ('/', rest)
  | 'b' :: rest => some ('\x08', rest)
  | 'f' :: rest => some ('\x0c', rest)
  | 'n' :: rest => some ('\n', rest)
  | 'r' :: rest => some ('\r', rest)
  | 't' :: rest => some ('\t', rest)
  | 'u' :: rest => readUnicodeEscape rest
  | _ => none

/-- The rest of a quoted text; `seen` holds its characters so far, last first. -/
def readQuoted (seen : List Char) : Nat → List Char → Option (String × List Char)
  | 0, _ => none
  | _ + 1, [] => none
  | fuel + 1, character :: rest =>
    if character = '"' then some (String.ofList seen.reverse, rest)
    else if character = '\\' then
      match readEscape rest with
      | some (escaped, rest) => readQuoted (escaped :: seen) fuel rest
      | none => none
    else if character.toNat < 32 then none
    else readQuoted (character :: seen) fuel rest

/-- A quoted text, after its opening quote. -/
def readString (input : List Char) : Option (String × List Char) :=
  readQuoted [] (input.length + 1) input

/-- The decimal digits in front. -/
def leadingDigits (input : List Char) : List Nat :=
  (input.takeWhile Char.isDigit).map (fun digit => digit.toNat - 48)

/-- The input behind its leading digits. -/
def afterDigits (input : List Char) : List Char :=
  input.dropWhile Char.isDigit

/-- Appends digits to a word while it fits 64 bits, and counts those that did. -/
def absorb (word : Nat) : List Nat → Nat × Nat
  | [] => (word, 0)
  | digit :: rest =>
    if word * 10 + digit < 0x10000000000000000 then
      let (word, count) := absorb (word * 10 + digit) rest
      (word, count + 1)
    else (word, 0)

/-- Natural number with these decimal digits. -/
def digitsValue (digits : List Nat) : Nat :=
  digits.foldl (fun value digit => value * 10 + digit) 0

/-- The power of ten as a binary64 number. -/
def powerOfTen? (exponent : Nat) : Option Binary64 :=
  Binary64.ofUnits? false (Nat.pow 10 exponent * Binary64.one) 1

/-- A word scaled by a power of ten in binary64 steps; nothing when it is too large. -/
def scaleWord? (word : Nat) (exponent : Int) : Option Binary64 := do
  let start ← Binary64.ofUnits? false (word * Binary64.one) 1
  if word = 0 then pure start
  else if 308 < exponent then none
  else if 0 ≤ exponent then start.mul? (← powerOfTen? exponent.toNat)
  else if -308 ≤ exponent then start.div? (← powerOfTen? (-exponent).toNat)
  else if -616 ≤ exponent then do
    let reduced ← start.div? (← powerOfTen? 308)
    reduced.div? (← powerOfTen? (-exponent - 308).toNat)
  else pure Binary64.zero

/-- The number with this sign. -/
def withSign (negative : Bool) (value : Binary64) : Number :=
  .float { value with negative }

/-- The exponent part, if one begins here: its value and the rest. -/
def readExponent? (input : List Char) : Option (Option Int × List Char) :=
  match input with
  | mark :: rest =>
    if mark = 'e' ∨ mark = 'E' then
      let (negative, digits) := match rest with
        | '+' :: digits => (false, digits)
        | '-' :: digits => (true, digits)
        | digits => (false, digits)
      match leadingDigits digits with
      | [] => none
      | values =>
        let magnitude : Int := digitsValue values
        some (some (if negative then -magnitude else magnitude), afterDigits digits)
    else some (none, input)
  | [] => some (none, [])

/-- The fraction part, if one begins here: its digits and the rest. -/
def readFraction? (input : List Char) : Option (Option (List Nat) × List Char) :=
  match input with
  | '.' :: rest =>
    match leadingDigits rest with
    | [] => none
    | digits => some (some digits, afterDigits rest)
  | _ => some (none, input)

/-- An integer literal: exact when it fits, else rounded; a negative zero is a float. -/
def integerLiteral? (negative : Bool) (digits : List Nat) : Option Number :=
  let value : Int := digitsValue digits
  if negative ∧ value = 0 then some (.float ⟨true, 0, Binary64.zero.representable⟩)
  else
    match Number.ofInt? (if negative then -value else value) with
    | some exact => some exact
    | none =>
      let (word, count) := absorb 0 digits
      (scaleWord? word (digits.length - count : Nat)).map (withSign negative)

/-- A number, and the rest. -/
def readNumber (input : List Char) : Option (Number × List Char) := do
  let (negative, input) := match input with
    | '-' :: rest => (true, rest)
    | _ => (false, input)
  let digits := leadingDigits input
  if digits = [] ∨ (digits.head? = some 0 ∧ 1 < digits.length) then none
  else do
    let (fraction, input) ← readFraction? (afterDigits input)
    let (exponent, input) ← readExponent? input
    match fraction, exponent with
    | none, none => do
      let number ← integerLiteral? negative digits
      pure (number, input)
    | _, _ => do
      let (whole, count) := absorb 0 digits
      let (word, behind) := absorb whole (fraction.getD [])
      let place : Int := (digits.length - count : Nat) - (behind : Int)
      let value ← scaleWord? word (place + exponent.getD 0)
      pure (withSign negative value, input)

end Conform.Json
