import Conform.Discriminator
import Conform.Options
import Conform.Violation

/-!
# Validators

A validator is a plan for checking values. It is data: running it is a function of its
own. Names inside a validator stay names and are looked up when the validator runs, and
a part may be marked to be built on first use.
-/

namespace Conform

/-- A plan for checking values. -/
inductive Validator where
  /-- Accepts every value. -/
  | any
  /-- Accepts the absence of a value only. -/
  | void
  /-- Accepts null only. -/
  | null
  | boolean (rules : BooleanRules)
  /-- Accepts numbers, whole ones only when `whole` is set. -/
  | number (whole : Bool) (rules : NumberRules)
  | string (rules : StringRules)
  /-- Accepts the listed literals. -/
  | enumeration (allowed : List Literal)
  /-- Accepts arrays, item by item, and tags them. -/
  | array (items : Validator) (minItems maxItems : Option Nat) (tag : Option Schema)
  /-- Accepts objects, property by property in the given order, and tags them. -/
  | object (properties : List (Property Validator)) (order : List Nat)
      (additional : Additional Validator) (tag : Schema)
  /-- Accepts what exactly one option accepts. -/
  | oneOf (options : List Validator)
  /-- Passes the value through every component. -/
  | allOf (components : List Validator)
  /-- Chooses the option of a union by its discriminator. -/
  | dispatch (discriminator : Discriminator) (variants : List Schema) (options : List Validator)
  /-- Lets the absence of a value through. -/
  | optional (inner : Validator)
  /-- Lets null through. -/
  | nullable (inner : Validator)
  /-- Adds a tag to what is accepted. -/
  | tagged (inner : Validator) (tag : Schema)
  /-- The validator of a name, under that name. -/
  | labelled (ref : NamedRef) (inner : Validator)
  /-- The validator of a name, looked up when it runs. -/
  | reference (ref : NamedRef)
  /-- A validator that is built on first use. -/
  | onDemand (cell : Nat) (inner : Validator)
  /-- A check given as a function. -/
  | custom (check : Options → Value → Verdict)

namespace Validator

/-- The name that a validator stands for. -/
def name? : Validator → Option NamedRef
  | .labelled ref _ => some ref
  | .reference ref => some ref
  | _ => none

/-- A short text about a validator: the name that it stands for, if there is one. -/
def summary (validator : Validator) : String :=
  let nominal := match validator.name? with
    | some ref => "Some(NamedType(" ++ Quoted.encode ref.name ++ "))"
    | none => "None"
  "Maker \x7b nominal: " ++ nominal ++ ", .. \x7d"

/-- Always succeeds with one value. -/
def constant (value : Value) : Validator :=
  .custom (fun _ _ => .accepted value)

/-- Always fails with the same violations. -/
def reject (violations : List Violation) : Validator :=
  .custom (fun _ _ => .rejected violations)

/-- Accepts strings and answers them in ASCII capitals. -/
def upperCase : Validator :=
  .custom (fun _ value =>
    match value with
    | .string text => .accepted (.string (String.ofList (text.toList.map Char.toUpper)))
    | _ => .refuse (.other "expected text"))

/-- Accepts strings of a form. -/
def textForm (form : String) (accepts : String → Bool) : Validator :=
  .custom (fun _ value =>
    match value with
    | .string text => if accepts text then .accepted value else .refuse (.malformed form)
    | _ => .refuse (.malformed form))

end Validator

end Conform
