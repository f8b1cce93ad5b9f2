import Conform.Schema.Basic

/-!
# Definitions and resolution

What a named node stands for is given by the definitions. A name without a definition
stands for the unknown schema, and so does a chain of names that is too long to follow,
in particular one that runs in a circle.
-/

namespace Conform

/-- The definition of each name; a name that has none stands for the unknown schema. -/
abbrev Definitions :=
  NamedRef → Schema

namespace Schema

/-- Follows names for `hops` nodes. -/
def follow (definitions : Definitions) : Nat → Schema → Schema
  | 0, _ => .unknown
  | hops + 1, .named ref => follow definitions hops (definitions ref)
  | _ + 1, schema => schema

/-- Most nodes looked at on a chain of names. -/
def aliasLimit : Nat :=
  64

/-- The first structural node behind the names. -/
def resolve (definitions : Definitions) (schema : Schema) : Schema :=
  follow definitions aliasLimit schema

/-- Whether the schema resolves to a scalar other than nothing at all. -/
def isScalar (definitions : Definitions) (schema : Schema) : Bool :=
  match schema.resolve definitions with
  | .null | .boolean _ _ | .integer _ _ | .number _ _ | .string _ _ => true
  | _ => false

/-- The allowed literals of a scalar node that lists some. -/
def ownLiterals? : Schema → Option (List Literal)
  | .boolean _ rules => if rules.allowed = [] then none else some rules.allowed
  | .integer _ rules => if rules.allowed = [] then none else some rules.allowed
  | .number _ rules => if rules.allowed = [] then none else some rules.allowed
  | .string _ rules => if rules.allowed = [] then none else some rules.allowed
  | _ => none

/-- The allowed literals behind the names. -/
def literals? (definitions : Definitions) (schema : Schema) : Option (List Literal) :=
  (schema.resolve definitions).ownLiterals?

/-- The declared properties behind the names, for an object. -/
def properties? (definitions : Definitions) (schema : Schema) : Option (List (Property Schema)) :=
  match schema.resolve definitions with
  | .object _ properties _ => some properties
  | _ => none

/-- A resolved schema is never a name. -/
theorem follow_ne_named (definitions : Definitions) (hops : Nat) (schema : Schema)
    (ref : NamedRef) : follow definitions hops schema ≠ .named ref := by
  induction hops generalizing schema with
  | zero => simp [follow]
  | succ hops ih => cases schema <;> simp [follow, ih]

/-- What is found from a structural node is the node itself. -/
theorem follow_structural {definitions : Definitions} {schema : Schema}
    (structural : ∀ ref, schema ≠ .named ref) (hops : Nat) :
    follow definitions (hops + 1) schema = schema := by
  cases schema with
  | named ref => exact absurd rfl (structural ref)
  | _ => rfl

/-- What so many hops find, one more finds. -/
theorem follow_succ {definitions : Definitions} {hops : Nat} {schema found : Schema}
    (here : follow definitions hops schema = found) (known : found ≠ .unknown) :
    follow definitions (hops + 1) schema = found := by
  induction hops generalizing schema with
  | zero => exact absurd here.symm known
  | succ hops ih =>
    cases schema with
    | named ref => exact ih here
    | _ => exact here

end Schema

end Conform
