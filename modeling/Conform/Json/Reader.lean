import Conform.Json.Document
import Conform.Json.Scan

/-!
# Reading documents

Strict JSON: no trailing text, at most 127 nested containers, and of a repeated key
the first position and the last value.
-/

namespace Conform.Json

/-- Most containers that may be open at once. -/
def depthLimit : Nat :=
  127

/-- The input behind a keyword. -/
def readKeyword (word : List Char) (input : List Char) : Option (List Char) :=
  if word.isPrefixOf input then some (input.drop word.length) else none

mutual

/-- One value with `depth` further containers allowed. -/
def readValue (depth : Nat) : Nat → List Char → Option (Json × List Char)
  | 0, _ => none
  | fuel + 1, input =>
    match skipBlanks input with
    | [] => none
    | first :: rest =>
      match first with
      | 'n' => (readKeyword ['u', 'l', 'l'] rest).map (fun rest => (.null, rest))
      | 't' => (readKeyword ['r', 'u', 'e'] rest).map (fun rest => (.bool true, rest))
      | 'f' => (readKeyword ['a', 'l', 's', 'e'] rest).map (fun rest => (.bool false, rest))
      | '"' => (readString rest).map (fun (value, rest) => (.string value, rest))
      | '[' =>
        match depth with
        | 0 => none
        | depth + 1 =>
          match skipBlanks rest with
          | ']' :: rest => some (.array [], rest)
          | _ => readItems depth [] fuel rest
      | '\x7b' =>
        match depth with
        | 0 => none
        | depth + 1 =>
          match skipBlanks rest with
          | '\x7d' :: rest => some (.object [], rest)
          | _ => readFields depth [] fuel rest
      | _ =>
        if first = '-' ∨ first.isDigit then
          (readNumber (first :: rest)).map (fun (value, rest) => (.number value, rest))
        else none

/-- Array items up to the closing bracket; `seen` holds those so far, last first. -/
def readItems (depth : Nat) (seen : List Json) : Nat → List Char → Option (Json × List Char)
  | 0, _ => none
  | fuel + 1, input =>
    match readValue depth fuel input with
    | none => none
    | some (item, rest) =>
      match skipBlanks rest with
      | ',' :: rest => readItems depth (item :: seen) fuel rest
      | ']' :: rest => some (.array (item :: seen).reverse, rest)
      | _ => none

/-- Object fields up to the closing brace; `seen` holds those so far. -/
def readFields (depth : Nat) (seen : Fields Json) : Nat → List Char → Option (Json × List Char)
  | 0, _ => none
  | fuel + 1, input =>
    match skipBlanks input with
    | '"' :: rest =>
      match readString rest with
      | none => none
      | some (key, rest) =>
        match skipBlanks rest with
        | ':' :: rest =>
          match readValue depth fuel rest with
          | none => none
          | some (value, rest) =>
            match skipBlanks rest with
            | ',' :: rest => readFields depth (seen.insert key value) fuel rest
            | '\x7d' :: rest => some (.object (seen.insert key value), rest)
            | _ => none
        | _ => none
    | _ => none

end

/-- The document a text holds, if it is one. -/
def parse? (text : String) : Option Json :=
  let input := text.toList
  match readValue depthLimit (2 * input.length + 2) input with
  | none => none
  | some (value, rest) => if skipBlanks rest = [] then some value else none

end Conform.Json
