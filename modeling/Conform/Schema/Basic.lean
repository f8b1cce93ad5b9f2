import Conform.Fields
import Conform.Literal
import Conform.Pattern.Basic

/-!
# Schemas

A schema describes values. Every structural node carries a number that stands for its
identity: two nodes are the same node when they have the same number and content. A
named node refers to a definition that is kept elsewhere, which is how schemas recur.
-/

namespace Conform

/-- A handle of a named schema: its key tells two names of one spelling apart. -/
structure NamedRef where
  /-- The identity of the name. -/
  key : Nat
  /-- The name as shown. -/
  name : String
  deriving DecidableEq, Repr

/-- What a boolean node asks. -/
structure BooleanRules where
  /-- The allowed literals; none of them allows all. -/
  allowed : List Literal := []
  deriving DecidableEq

/-- What a number or integer node asks. -/
structure NumberRules where
  minimum : Option Binary64 := none
  maximum : Option Binary64 := none
  exclusiveMinimum : Option Binary64 := none
  exclusiveMaximum : Option Binary64 := none
  /-- The allowed literals; none of them allows all. -/
  allowed : List Literal := []
  deriving DecidableEq

/-- What a string node asks. -/
structure StringRules where
  /-- Name of a format. -/
  format : Option String := none
  /-- A pattern that some part of the string matches. -/
  pattern : Option Pattern := none
  /-- Least count of characters. -/
  minLength : Option Nat := none
  /-- Greatest count of characters. -/
  maxLength : Option Nat := none
  /-- The allowed literals; none of them allows all. -/
  allowed : List Literal := []
  deriving DecidableEq

/-- A declared property of an object. -/
structure Property (α : Type) where
  /-- The name inside. -/
  name : String
  /-- Whether the property has to be present. -/
  required : Bool
  /-- The name on the wire, when it differs. -/
  wireName : Option String
  /-- What its value has to satisfy. -/
  body : α
  deriving DecidableEq

/-- What becomes of properties that are not declared. -/
inductive Additional (α : Type) where
  /-- They are kept as they are. -/
  | keep
  /-- They are refused. -/
  | deny
  /-- Each has to satisfy this. -/
  | each (body : α)
  deriving DecidableEq

/-- A schema. -/
inductive Schema where
  | unknown
  | void
  | null
  | boolean (node : Nat) (rules : BooleanRules)
  | integer (node : Nat) (rules : NumberRules)
  | number (node : Nat) (rules : NumberRules)
  | string (node : Nat) (rules : StringRules)
  | array (node : Nat) (items : Schema) (minItems maxItems : Option Nat)
  | object (node : Nat) (properties : List (Property Schema)) (additional : Additional Schema)
  | union (node : Nat) (options : List Schema)
  | intersection (node : Nat) (components : List Schema)
  | named (ref : NamedRef)

/-- Declares a property: in place of an earlier one of the same name, else at the end. -/
def Property.declare {α : Type} (property : Property α) : List (Property α) → List (Property α)
  | [] => [property]
  | first :: rest =>
    if first.name = property.name then property :: rest else first :: property.declare rest

/-- The declared property of a name. -/
def Property.find? {α : Type} (properties : List (Property α)) (name : String) :
    Option (Property α) :=
  properties.find? (fun property => property.name = name)

/-- The names of the declared properties. -/
def Property.names {α : Type} (properties : List (Property α)) : List String :=
  properties.map Property.name

namespace Schema

mutual

/-- Equality of nodes, decided number first. -/
def beq : Schema → Schema → Bool
  | .unknown, .unknown => true
  | .void, .void => true
  | .null, .null => true
  | .boolean node rules, .boolean node' rules' => node = node' && rules = rules'
  | .integer node rules, .integer node' rules' => node = node' && rules = rules'
  | .number node rules, .number node' rules' => node = node' && rules = rules'
  | .string node rules, .string node' rules' => node = node' && rules = rules'
  | .array node items least most, .array node' items' least' most' =>
    node = node' && least = least' && most = most' && beq items items'
  | .object node properties additional, .object node' properties' additional' =>
    node = node' && beqProperties properties properties' && beqAdditional additional additional'
  | .union node options, .union node' options' => node = node' && beqList options options'
  | .intersection node components, .intersection node' components' =>
    node = node' && beqList components components'
  | .named ref, .named ref' => ref = ref'
  | _, _ => false

/-- Equality of lists of nodes. -/
def beqList : List Schema → List Schema → Bool
  | [], [] => true
  | first :: rest, first' :: rest' => beq first first' && beqList rest rest'
  | _, _ => false

/-- Equality of declared properties. -/
def beqProperties : List (Property Schema) → List (Property Schema) → Bool
  | [], [] => true
  | ⟨name, required, wireName, body⟩ :: rest, ⟨name', required', wireName', body'⟩ :: rest' =>
    name = name' && required = required' && wireName = wireName' && beq body body' &&
      beqProperties rest rest'
  | _, _ => false

/-- Equality of what becomes of other properties. -/
def beqAdditional : Additional Schema → Additional Schema → Bool
  | .keep, .keep => true
  | .deny, .deny => true
  | .each body, .each body' => beq body body'
  | _, _ => false

end

mutual

/-- Schemas are compared by what they are. -/
theorem beq_iff : ∀ left right : Schema, beq left right = true ↔ left = right
  | .unknown, right => by cases right <;> simp [beq]
  | .void, right => by cases right <;> simp [beq]
  | .null, right => by cases right <;> simp [beq]
  | .boolean _ _, right => by cases right <;> simp [beq]
  | .integer _ _, right => by cases right <;> simp [beq]
  | .number _ _, right => by cases right <;> simp [beq]
  | .string _ _, right => by cases right <;> simp [beq]
  | .array _ items _ _, right => by
    cases right <;> simp [beq, beq_iff items, and_assoc, and_comm, and_left_comm]
  | .object _ properties additional, right => by
    cases right <;>
      simp [beq, beqProperties_iff properties, beqAdditional_iff additional, and_assoc]
  | .union _ options, right => by cases right <;> simp [beq, beqList_iff options]
  | .intersection _ components, right => by cases right <;> simp [beq, beqList_iff components]
  | .named _, right => by cases right <;> simp [beq]

/-- Lists of schemas are compared by what they are. -/
theorem beqList_iff : ∀ left right : List Schema, beqList left right = true ↔ left = right
  | [], right => by cases right <;> simp [beqList]
  | first :: rest, right => by
    cases right <;> simp [beqList, beq_iff first, beqList_iff rest]

/-- Lists of properties are compared by what they are. -/
theorem beqProperties_iff :
    ∀ left right : List (Property Schema), beqProperties left right = true ↔ left = right
  | [], right => by cases right <;> simp [beqProperties]
  | ⟨_, _, _, body⟩ :: rest, right => by
    cases right with
    | nil => simp [beqProperties]
    | cons other more =>
      obtain ⟨name, required, wireName, body'⟩ := other
      simp [beqProperties, beq_iff body, beqProperties_iff rest, and_assoc]

/-- What judges other fields is compared by what it is. -/
theorem beqAdditional_iff :
    ∀ left right : Additional Schema, beqAdditional left right = true ↔ left = right
  | .keep, right => by cases right <;> simp [beqAdditional]
  | .deny, right => by cases right <;> simp [beqAdditional]
  | .each body, right => by cases right <;> simp [beqAdditional, beq_iff body]

end

instance : DecidableEq Schema := fun left right =>
  decidable_of_iff (beq left right = true) (beq_iff left right)

/-- The word for a node's kind. -/
def kind : Schema → String
  | .unknown => "unknown"
  | .void => "void"
  | .null => "null"
  | .boolean _ _ => "boolean"
  | .integer _ _ => "integer"
  | .number _ _ => "number"
  | .string _ _ => "string"
  | .array _ _ _ _ => "array"
  | .object _ _ _ => "object"
  | .union _ _ => "union"
  | .intersection _ _ => "intersection"
  | .named _ => "named"

/-- A short text: names by name, arrays with their items, all else by kind. -/
def text : Schema → String
  | .named ref => ref.name
  | .array _ items _ _ => "array<" ++ items.text ++ ">"
  | other => other.kind

end Schema

end Conform
