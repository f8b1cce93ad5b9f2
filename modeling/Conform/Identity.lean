/-!
# Identity of contents

Two containers share their content when they have the same identity. An identity says
where the content was made: at the start of a numbered run, at a part of another place,
or by revising an earlier content at some place. Parts and revisions differ from what
they are made of, so a content made later is never taken for an earlier one.
-/

namespace Conform

/-- Where a content was made. -/
inductive Identity where
  /-- The place where a numbered run starts. -/
  | run (number : Nat)
  /-- A numbered part of a place. -/
  | part (whole : Identity) (index : Nat)
  /-- A content revised at a place. -/
  | revised (old place : Identity)
  deriving DecidableEq, Repr

namespace Identity

/-- Count of the steps that made an identity. -/
def depth : Identity → Nat
  | .run _ => 0
  | .part whole _ => whole.depth + 1
  | .revised old place => old.depth + place.depth + 1

end Identity

end Conform
