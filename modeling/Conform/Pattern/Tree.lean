import Conform.Text.CharSet

/-!
# Patterns as they are written

A tree has one node for each construct of a pattern. What a construct matches depends
on the flags in force at its place; the tree only records where flags are set.
-/

namespace Conform

/-- The flags of a pattern. -/
inductive Flag where
  /-- Letters match in either case. -/
  | ignoreCase
  /-- `^` and `$` match at lines. -/
  | multiLine
  /-- The dot matches line ends. -/
  | dotAll
  /-- Repetitions are lazy unless marked. -/
  | swapGreed
  /-- Classes and cases are those of all characters, not of ASCII alone. -/
  | unicode
  /-- Lines end in carriage returns, too. -/
  | carriage
  /-- Blanks and comments in the pattern are skipped. -/
  | ignoreSpace
  deriving DecidableEq

/-- Flags with the values that they take. -/
abbrev FlagChange :=
  List (Flag × Bool)

/-- The classes with a letter of their own. -/
inductive Shorthand where
  | digit
  | blank
  | word

/-- A condition on a position, as it is written. -/
inductive Mark where
  | caret
  | dollar
  | textStart
  | textEnd
  | wordBoundary
  | noWordBoundary
  | wordStart
  | wordEnd
  | wordStartHalf
  | wordEndHalf

/-- An operation between two classes. -/
inductive ClassOperation where
  | inter
  | diff
  | symDiff

/-- A class in brackets and its parts. -/
inductive ClassTree where
  /-- One character. -/
  | literal (character : Char)
  /-- The characters from the first to the last. -/
  | range (first last : Char)
  /-- A class of ASCII characters by name. -/
  | ascii (negated : Bool) (set : CharSet)
  /-- A property of characters. -/
  | property (negated : Bool) (set : CharSet)
  /-- A class by its letter. -/
  | shorthand (negated : Bool) (kind : Shorthand)
  /-- A class in brackets inside a class. -/
  | bracketed (negated : Bool) (content : ClassTree)
  /-- The parts one after the other. -/
  | items (parts : List ClassTree)
  /-- Two classes with an operation between them. -/
  | operation (kind : ClassOperation) (left right : ClassTree)

/-- A pattern and its parts. -/
inductive PatternTree where
  /-- Nothing. -/
  | empty
  /-- Flags for the rest of the enclosing group. -/
  | setFlags (change : FlagChange)
  /-- One character, which may be written as a byte. -/
  | literal (character : Char) (asByte : Bool)
  /-- The dot. -/
  | dot
  /-- A condition on a position. -/
  | mark (kind : Mark)
  /-- A property of characters. -/
  | property (negated : Bool) (set : CharSet)
  /-- A class by its letter. -/
  | shorthand (negated : Bool) (kind : Shorthand)
  /-- A class in brackets. -/
  | bracketed (negated : Bool) (content : ClassTree)
  /-- A repetition; it is greedy unless marked. -/
  | repeated (inner : PatternTree) (least : Nat) (most : Option Nat) (greedy : Bool)
  /-- A group, which may set flags and may be numbered. -/
  | group (change : FlagChange) (numbered : Bool) (inner : PatternTree)
  /-- The parts one after the other. -/
  | sequence (parts : List PatternTree)
  /-- One part or another. -/
  | alternatives (parts : List PatternTree)

namespace ClassTree

/-- A lone part stands for itself. -/
def ofParts : List ClassTree → ClassTree
  | [part] => part
  | parts => .items parts

mutual

/-- How many brackets, lists of parts and operations are inside one another. -/
def depth : ClassTree → Nat
  | .bracketed _ content => content.depth + 1
  | .items [] => 0
  | .items (first :: rest) => max first.depth (deepest rest) + 1
  | .operation _ left right => max left.depth right.depth + 1
  | _ => 0

/-- The depth of the deepest part. -/
def deepest : List ClassTree → Nat
  | [] => 0
  | first :: rest => max first.depth (deepest rest)

end

end ClassTree

namespace PatternTree

/-- A lone part stands for itself, and no part for nothing. -/
def ofParts (join : List PatternTree → PatternTree) : List PatternTree → PatternTree
  | [] => .empty
  | [part] => part
  | parts => join parts

mutual

/-- How many groups, repetitions, sequences, alternatives and classes are inside one
another. -/
def depth : PatternTree → Nat
  | .bracketed _ content => content.depth + 1
  | .repeated inner _ _ _ => inner.depth + 1
  | .group _ _ inner => inner.depth + 1
  | .sequence parts => deepest parts + 1
  | .alternatives parts => deepest parts + 1
  | _ => 0

/-- The depth of the deepest part. -/
def deepest : List PatternTree → Nat
  | [] => 0
  | first :: rest => max first.depth (deepest rest)

end

end PatternTree

end Conform
