import Conform.Pattern.Meaning
import Conform.Pattern.Program
import Conform.Pattern.Reader

/-!
# Patterns

A pattern is a text together with the expression that it denotes. A text denotes an
expression if it has a tree, the tree has a meaning, and the programs that match the
meaning are not too large.
-/

namespace Conform

/-- The expression that a text denotes. -/
def Expression.parse? (source : String) : Option Expression := do
  let tree ← PatternTree.ofText? source
  let (expression, _) ← tree.expression? .initial
  if Program.fits expression then some expression else none

/-- A pattern: its text with the expression the text denotes. -/
structure Pattern where
  /-- The pattern as written. -/
  source : String
  /-- What it denotes. -/
  expression : Expression
  /-- The text denotes the expression. -/
  parsed : Expression.parse? source = some expression

namespace Pattern

/-- Patterns with one text are one pattern. -/
theorem eq_of_source {left right : Pattern} (same : left.source = right.source) :
    left = right := by
  obtain ⟨source, expression, parsed⟩ := left
  obtain ⟨other, found, read⟩ := right
  cases same
  have equal : expression = found := Option.some.inj (parsed.symm.trans read)
  cases equal
  rfl

instance : DecidableEq Pattern := fun left right =>
  if same : left.source = right.source then isTrue (eq_of_source same)
  else isFalse (fun equal => same (congrArg source equal))

/-- The pattern with this text, if the text denotes an expression. -/
def ofString? (source : String) : Option Pattern :=
  match parsed : Expression.parse? source with
  | some expression => some ⟨source, expression, parsed⟩
  | none => none

/-- Whether some part of the text matches. -/
def matchesText (pattern : Pattern) (text : String) : Bool :=
  pattern.expression.matchesText text

end Pattern

end Conform
