import Conform.Json.Reader
import Conform.Options
import Conform.Text.Quoted

/-!
# Reading options

Options are written as an object with one field per option, each at most once, or as an
array in the order of the options; what is left out keeps its default. A document that
cannot be read is refused with the place of the first problem. Text behind the document
is not looked at.
-/

namespace Conform.Options

/-- The options by name. -/
inductive Field where
  | unknownField
  | parseNumericStrings
  | parseBooleanStrings
  | allowConvertForArrayType
  | convertFromNetwork
  deriving DecidableEq

/-- The options in order. -/
def Field.all : List Field :=
  [.unknownField, .parseNumericStrings, .parseBooleanStrings, .allowConvertForArrayType,
    .convertFromNetwork]

/-- The name of an option. -/
def Field.name : Field → String
  | .unknownField => "unknownField"
  | .parseNumericStrings => "parseNumericStrings"
  | .parseBooleanStrings => "parseBooleanStrings"
  | .allowConvertForArrayType => "allowConvertForArrayType"
  | .convertFromNetwork => "convertFromNetwork"

/-- A step to the place of a problem. -/
inductive Segment where
  | key (name : String)
  | index (index : Nat)
  /-- A key that could not be read. -/
  | unread

/-- What is wrong with a document of options. -/
inductive Problem where
  | unknownVariant (name : String)
  | unknownField (name : String)
  | invalidType (found expected : String)
  | duplicateField (name : String)
  /-- The text is no document. -/
  | syntaxError

/-- A problem and its place. -/
structure Refusal where
  path : List Segment
  problem : Problem

/-- The place as text. -/
def Segment.pathText (path : List Segment) : String :=
  match path with
  | [] => "."
  | first :: rest =>
    rest.foldl (fun text segment =>
      match segment with
      | .key name => text ++ "." ++ name
      | .index position => text ++ "[" ++ toString position ++ "]"
      | .unread => text ++ ".?")
      (match first with
      | .key name => name
      | .index position => "[" ++ toString position ++ "]"
      | .unread => "?")

/-- A name between grave accents. -/
def marked (name : String) : String :=
  "\x60" ++ name ++ "\x60"

/-- The wording of a problem; a text that is no document has none. -/
def Problem.text? : Problem → Option String
  | .unknownVariant name =>
    some ("unknown variant " ++ marked name ++ ", expected " ++ marked "fail" ++ " or " ++
      marked "drop")
  | .unknownField name =>
    some ("unknown field " ++ marked name ++ ", expected one of " ++
      String.intercalate ", " (Field.all.map (fun field => marked field.name)))
  | .invalidType found expected => some ("invalid type: " ++ found ++ ", expected " ++ expected)
  | .duplicateField name => some ("duplicate field " ++ marked name)
  | .syntaxError => none

/-- A part of the document that was read, with the rest, or the first problem. -/
abbrev Reading (α : Type) :=
  Except Refusal (α × List Char)

/-- A refusal at a place. -/
def refuse {α : Type} (path : List Segment) (problem : Problem) : Reading α :=
  .error ⟨path, problem⟩

/-- A number as a problem shows it. -/
def numberFound : Number → String
  | .integer value _ => "integer " ++ marked (Number.integerText value)
  | .float value => "floating point " ++ marked (value.text Number.documentStyle)

/-- The problem that something else stands where `expected` is expected. -/
def mismatch (expected : String) (input : List Char) : Problem :=
  let found := match input with
    | [] => none
    | first :: rest =>
      if first = 'n' then (Json.readKeyword ['u', 'l', 'l'] rest).map (fun _ => "null")
      else if first = 't' then
        (Json.readKeyword ['r', 'u', 'e'] rest).map (fun _ => "boolean " ++ marked "true")
      else if first = 'f' then
        (Json.readKeyword ['a', 'l', 's', 'e'] rest).map (fun _ => "boolean " ++ marked "false")
      else if first = '"' then
        (Json.readString rest).map (fun (text, _) => "string " ++ Quoted.encode text)
      else if first = '[' then some "sequence"
      else if first = '\x7b' then some "map"
      else if first = '-' ∨ first.isDigit then
        (Json.readNumber input).map (fun (number, _) => numberFound number)
      else none
  match found with
  | some found => .invalidType found expected
  | none => .syntaxError

/-- A truth value. -/
def readBool (path : List Segment) (input : List Char) : Reading Bool :=
  let input := Json.skipBlanks input
  match Json.readKeyword ['t', 'r', 'u', 'e'] input,
    Json.readKeyword ['f', 'a', 'l', 's', 'e'] input with
  | some rest, _ => .ok (true, rest)
  | none, some rest => .ok (false, rest)
  | none, none =>
    match input with
    | 't' :: _ => refuse path .syntaxError
    | 'f' :: _ => refuse path .syntaxError
    | _ => refuse path (mismatch "a boolean" input)

/-- The choice with this name. -/
def variantNamed (path : List Segment) (name : String) (rest : List Char) :
    Reading UnknownField :=
  if name = "fail" then .ok (.fail, rest)
  else if name = "drop" then .ok (.drop, rest)
  else refuse path (.unknownVariant name)

/-- The name of a choice, in quotes. -/
def readVariant (path : List Segment) (input : List Char) : Reading (UnknownField × String) :=
  match Json.skipBlanks input with
  | '"' :: rest =>
    match Json.readString rest with
    | some (name, rest) =>
      (variantNamed path name rest).map (fun (choice, rest) => ((choice, name), rest))
    | none => refuse path .syntaxError
  | _ => refuse path .syntaxError

/-- A choice: its name, or an object with its name as the key of null. -/
def readUnknownField (path : List Segment) (input : List Char) : Reading UnknownField :=
  match Json.skipBlanks input with
  | '"' :: rest =>
    (readVariant path ('"' :: rest)).map (fun ((choice, _), rest) => (choice, rest))
  | '\x7b' :: rest =>
    match readVariant path rest with
    | .error refusal => .error refusal
    | .ok ((choice, name), rest) =>
      match Json.skipBlanks rest with
      | ':' :: rest =>
        let content := Json.skipBlanks rest
        match Json.readKeyword ['n', 'u', 'l', 'l'] content with
        | some rest =>
          match Json.skipBlanks rest with
          | '\x7d' :: rest => .ok (choice, rest)
          | _ => refuse path .syntaxError
        | none => refuse (path ++ [.key name]) (mismatch "unit" content)
      | _ => refuse path .syntaxError
  | _ => refuse path .syntaxError

/-- The value of an option, written into the options. -/
def readField (path : List Segment) (field : Field) (options : Options) (input : List Char) :
    Reading Options :=
  match field with
  | .unknownField =>
    (readUnknownField path input).map (fun (choice, rest) =>
      ({ options with unknownField := choice }, rest))
  | .parseNumericStrings =>
    (readBool path input).map (fun (flag, rest) =>
      ({ options with parseNumericStrings := flag }, rest))
  | .parseBooleanStrings =>
    (readBool path input).map (fun (flag, rest) =>
      ({ options with parseBooleanStrings := flag }, rest))
  | .allowConvertForArrayType =>
    (readBool path input).map (fun (flag, rest) =>
      ({ options with allowConvertForArrayType := flag }, rest))
  | .convertFromNetwork =>
    (readBool path input).map (fun (flag, rest) =>
      ({ options with convertFromNetwork := flag }, rest))

/-- The elements of an array, for the options that remain. -/
def readElements (first : Bool) (index : Nat) (options : Options) :
    List Field → List Char → Reading Options
  | [], input =>
    match Json.skipBlanks input with
    | ']' :: rest => .ok (options, rest)
    | _ => refuse [] .syntaxError
  | field :: fields, input =>
    match Json.skipBlanks input with
    | ']' :: rest => .ok (options, rest)
    | [] => refuse [] .syntaxError
    | character :: rest =>
      if first then
        match readField [.index index] field options (character :: rest) with
        | .error refusal => .error refusal
        | .ok (options, rest) => readElements false (index + 1) options fields rest
      else if character = ',' then
        match Json.skipBlanks rest with
        | [] => refuse [] .syntaxError
        | ']' :: _ => refuse [] .syntaxError
        | rest =>
          match readField [.index index] field options rest with
          | .error refusal => .error refusal
          | .ok (options, rest) => readElements false (index + 1) options fields rest
      else refuse [] .syntaxError

/-- The key of a field, after its opening quote. -/
def readKey (seen : List Field) (input : List Char) : Reading Field :=
  match Json.readString input with
  | none => refuse [.unread] .syntaxError
  | some (name, rest) =>
    match Field.all.find? (fun field => field.name = name) with
    | none => refuse [.key name] (.unknownField name)
    | some field =>
      if field ∈ seen then refuse [] (.duplicateField name) else .ok (field, rest)

/-- The fields of an object, after its opening brace. -/
def readFields (seen : List Field) (options : Options) : Nat → List Char → Reading Options
  | 0, _ => refuse [.unread] .syntaxError
  | fuel + 1, input =>
    let next (input : List Char) : Reading Options :=
      match readKey seen input with
      | .error refusal => .error refusal
      | .ok (field, rest) =>
        match Json.skipBlanks rest with
        | ':' :: rest =>
          match readField [.key field.name] field options rest with
          | .error refusal => .error refusal
          | .ok (options, rest) => readFields (field :: seen) options fuel rest
        | _ => refuse [] .syntaxError
    match Json.skipBlanks input with
    | '\x7d' :: rest => .ok (options, rest)
    | '"' :: rest => if seen.isEmpty then next rest else refuse [.unread] .syntaxError
    | ',' :: rest =>
      if seen.isEmpty then refuse [.unread] .syntaxError
      else
        match Json.skipBlanks rest with
        | '"' :: rest => next rest
        | _ => refuse [.unread] .syntaxError
    | _ => refuse [.unread] .syntaxError

/-- The options that a text begins with. -/
def read (input : List Char) : Except Refusal Options :=
  let input := Json.skipBlanks input
  let reading := match input with
    | '[' :: rest => readElements true 0 .strict Field.all rest
    | '\x7b' :: rest => readFields [] .strict (rest.length + 1) rest
    | _ => refuse [] (mismatch "struct MakeOptions" input)
  reading.map Prod.fst

/-- The options in a text. -/
def ofString (text : String) : Except Refusal Options :=
  read text.toList

/-- Characters of a byte sequence; a byte that is not part of a well-formed character
reads as NUL, which no document may contain. -/
def decodeBytes : Nat → List UInt8 → List Char
  | 0, _ => []
  | _ + 1, [] => []
  | fuel + 1, first :: rest =>
    let take (count : Nat) : List Char :=
      let bytes := first :: rest.take count
      match String.fromUTF8? ⟨bytes.toArray⟩ with
      | some text => text.toList ++ decodeBytes fuel (rest.drop count)
      | none => Char.ofNat 0 :: decodeBytes fuel rest
    if first < 0x80 then take 0
    else if first < 0xe0 then take 1
    else if first < 0xf0 then take 2
    else take 3

/-- The options in a byte sequence. -/
def ofBytes (bytes : List UInt8) : Except Refusal Options :=
  read (decodeBytes bytes.length bytes)

end Conform.Options
