import Conform.Number
import Conform.Text.Quoted

/-!
# Literals

The scalar constants of an enumeration. Numbers among them are binary64 and compare
as values, so the two zeros are one literal with two texts.
-/

namespace Conform

/-- A scalar constant. -/
inductive Literal where
  | null
  | bool (value : Bool)
  | number (value : Binary64)
  | string (value : String)
  deriving DecidableEq

namespace Literal

/-- Equality as values. -/
def same : Literal → Literal → Bool
  | .null, .null => true
  | .bool left, .bool right => left == right
  | .number left, .number right => left.numericEq right
  | .string left, .string right => left == right
  | _, _ => false

/-- A literal is the same as itself. -/
theorem same_refl (literal : Literal) : literal.same literal = true := by
  cases literal <;> simp [same, Binary64.numericEq]

/-- It does not matter in which order literals are compared. -/
theorem same_symm (left right : Literal) : left.same right = right.same left := by
  cases left <;> cases right <;> simp [same, Binary64.numericEq, Bool.beq_comm]

/-- Literals that are the same as a third are the same. -/
theorem same_trans {first second third : Literal} (left : first.same second = true)
    (right : second.same third = true) : first.same third = true := by
  cases first <;> cases second <;> cases third <;>
    simp_all [same, Binary64.numericEq]

/-- Whether the list holds the literal. -/
def isIn (literal : Literal) (literals : List Literal) : Bool :=
  literals.any (fun other => other.same literal)

/-- Position of a literal's kind: null, truth values, numbers, strings. -/
def rank : Literal → Nat
  | .null => 0
  | .bool _ => 1
  | .number _ => 2
  | .string _ => 3

/-- Order by kind, then by value; strings by code points. -/
def le (left right : Literal) : Bool :=
  match left, right with
  | .bool left, .bool right => !left || right
  | .number left, .number right => left.le right
  | .string left, .string right => !(right < left)
  | left, right => left.rank ≤ right.rank

/-- The literals in order; equal ones stay in the order given. -/
def sort (literals : List Literal) : List Literal :=
  literals.mergeSort le

/-- The literals without those that repeat an earlier one. -/
def distinct (literals : List Literal) : List Literal :=
  literals.foldl (fun seen literal => if literal.isIn seen then seen else seen ++ [literal]) []

/-- The literal as a message shows it. -/
def text : Literal → String
  | .null => "null"
  | .bool value => if value then "true" else "false"
  | .number value => value.text Number.messageStyle
  | .string value => Quoted.encode value

/-- A list of literals as a message shows it. -/
def listText (literals : List Literal) : String :=
  "[" ++ String.intercalate ", " (literals.map text) ++ "]"

end Literal

end Conform
