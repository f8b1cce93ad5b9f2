/-!
# Faults

What goes wrong outside of validation: in building schemas and registries, and in
compiling and running traversals.
-/

namespace Conform

/-- A failure that is not about a value's validity. -/
inductive Fault where
  /-- The format's name is taken. -/
  | duplicateFormat (name : String)
  /-- The name has a definition. -/
  | alreadyDefined (name : String)
  /-- The leaf can only be told apart behind a choice at the path. -/
  | ambiguousTraversal (root leaf path : String)
  /-- No path leads to the leaf. -/
  | unreachableLeaf (root leaf : String)
  /-- The value is not of the root's type. -/
  | rootMismatch (root : String)
  /-- A transform failed. -/
  | transform (message : String)
  /-- A transform did not end in order. -/
  | transformAborted
  deriving DecidableEq, Repr

namespace Fault

/-- The wording of a fault. -/
def text : Fault → String
  | .duplicateFormat name => "format already registered: " ++ name
  | .alreadyDefined name => "named type already defined: " ++ name
  | .ambiguousTraversal root leaf path =>
    "cannot traverse from " ++ root ++ " to " ++ leaf ++ ": ambiguous path at " ++ path
  | .unreachableLeaf root leaf =>
    "cannot traverse from " ++ root ++ " to " ++ leaf ++ ": leaf is unreachable"
  | .rootMismatch root => "value is not a " ++ root
  | .transform message => "transform failed: " ++ message
  | .transformAborted => "transform did not end in order"

end Fault

end Conform
