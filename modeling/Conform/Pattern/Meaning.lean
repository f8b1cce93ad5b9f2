import Conform.Pattern.Expression
import Conform.Pattern.Tree
import Conform.Text.Folding

/-!
# What a written pattern means

The flags in force at a place of a tree decide what stands there. A tree has no meaning
where it goes beyond ASCII though its flags say that classes are those of ASCII.
-/

namespace Conform

/-- The flags in force at a place of a pattern. -/
structure Flags where
  ignoreCase : Bool
  multiLine : Bool
  dotAll : Bool
  swapGreed : Bool
  unicode : Bool
  carriage : Bool

namespace Flags

/-- The flags at the start of a pattern. -/
def initial : Flags where
  ignoreCase := false
  multiLine := false
  dotAll := false
  swapGreed := false
  unicode := true
  carriage := false

/-- Sets one flag. Skipping blanks has an effect on reading alone. -/
def set (flags : Flags) (flag : Flag) (value : Bool) : Flags :=
  match flag with
  | .ignoreCase => { flags with ignoreCase := value }
  | .multiLine => { flags with multiLine := value }
  | .dotAll => { flags with dotAll := value }
  | .swapGreed => { flags with swapGreed := value }
  | .unicode => { flags with unicode := value }
  | .carriage => { flags with carriage := value }
  | .ignoreSpace => flags

/-- The flags after a change. -/
def apply (flags : Flags) (change : FlagChange) : Flags :=
  change.foldl (fun flags (flag, value) => flags.set flag value) flags

/-- Closes a set up to case, if case is ignored. -/
def fold (flags : Flags) (set : CharSet) : CharSet :=
  if !flags.ignoreCase then set
  else if flags.unicode then Folding.close set
  else Folding.closeAscii set

/-- The characters outside a set. Where the set has a span up to the surrogates and
another one from them on, the gap between the two counts as the span of its ends. -/
def outside (set : CharSet) : CharSet :=
  if set.covers 0xd7ff && set.covers 0xe000 && !set.covers 0xd800 then
    set.compl.union (.span 0xd7ff 0xe000)
  else set.compl

/-- A set or what is outside of it; outside of a set there is more than ASCII. -/
def negate? (flags : Flags) (negated : Bool) (set : CharSet) : Option CharSet :=
  if !negated then some set
  else if flags.unicode then some (outside set)
  else none

/-- A property, which is one of all characters. -/
def property? (flags : Flags) (negated : Bool) (set : CharSet) : Option CharSet :=
  if flags.unicode then flags.negate? negated (flags.fold set) else none

end Flags

namespace Shorthand

/-- The set that a shorthand stands for. -/
def set (unicode : Bool) : Shorthand → CharSet
  | .digit => if unicode then Category.decimalNumber else .ofTable "30-39"
  | .blank => if unicode then Property.whiteSpace else .ofTable "9-d 20"
  | .word => if unicode then Property.word else Assertion.asciiWord

end Shorthand

namespace Mark

/-- The assertion that a mark stands for. -/
def assertion (flags : Flags) : Mark → Assertion
  | .caret => if flags.multiLine then .lineStart flags.carriage else .textStart
  | .dollar => if flags.multiLine then .lineEnd flags.carriage else .textEnd
  | .textStart => .textStart
  | .textEnd => .textEnd
  | .wordBoundary => .wordBoundary (!flags.unicode)
  | .noWordBoundary => .noWordBoundary (!flags.unicode)
  | .wordStart => .wordStart (!flags.unicode)
  | .wordEnd => .wordEnd (!flags.unicode)
  | .wordStartHalf => .wordStartHalf (!flags.unicode)
  | .wordEndHalf => .wordEndHalf (!flags.unicode)

end Mark

namespace ClassOperation

/-- The set that an operation makes of two. -/
def apply : ClassOperation → CharSet → CharSet → CharSet
  | .inter => CharSet.inter
  | .diff => CharSet.diff
  | .symDiff => CharSet.symDiff

end ClassOperation

namespace ClassTree

mutual

/-- The set that a class stands for. -/
def set? (flags : Flags) : ClassTree → Option CharSet
  | .literal character =>
    if flags.unicode || character.toNat < 0x80 then some (.single character.toNat) else none
  | .range first last =>
    if flags.unicode || last.toNat < 0x80 then some (.span first.toNat last.toNat) else none
  | .ascii negated set => flags.negate? negated (flags.fold set)
  | .property negated set => flags.property? negated set
  | .shorthand negated kind => flags.negate? negated (kind.set flags.unicode)
  | .bracketed negated content => do flags.negate? negated (flags.fold (← content.set? flags))
  | .items parts => unionOf? flags parts
  | .operation kind left right => do
    pure (kind.apply (flags.fold (← left.set? flags)) (flags.fold (← right.set? flags)))

/-- The union of the sets that the parts stand for. -/
def unionOf? (flags : Flags) : List ClassTree → Option CharSet
  | [] => some .empty
  | first :: rest => do pure ((← first.set? flags).union (← unionOf? flags rest))

end

end ClassTree

namespace PatternTree

/-- One character, or the characters alike to it up to case. -/
def literalOf (flags : Flags) (character : Char) : Expression :=
  if flags.unicode || character.toNat < 0x80 then
    .ofSet (flags.fold (.single character.toNat))
  else .literal [character]

/-- The dot; it matches no part of a character. -/
def dot? (flags : Flags) : Option Expression :=
  if !flags.unicode then none
  else if flags.dotAll then some (.one .all)
  else if flags.carriage then some (.one (.compl (.ofTable "a d")))
  else some (.one (.compl (.ofTable "a")))

mutual

/-- The expression that a tree stands for, and the flags behind it. -/
def expression? (flags : Flags) : PatternTree → Option (Expression × Flags)
  | .empty => some (.empty, flags)
  | .setFlags change => some (.empty, flags.apply change)
  | .literal found asByte =>
    if asByte && !flags.unicode && 0x80 ≤ found.toNat then none
    else some (literalOf flags found, flags)
  | .dot => (dot? flags).map (fun expression => (expression, flags))
  | .mark kind => some (.assert (kind.assertion flags), flags)
  | .property negated set =>
    (flags.property? negated set).map (fun set => (.ofSet set, flags))
  | .shorthand negated kind =>
    (flags.negate? negated (kind.set flags.unicode)).map (fun set => (.ofSet set, flags))
  | .bracketed negated content => do
    let set ← flags.negate? negated (flags.fold (← content.set? flags))
    pure (.ofSet set, flags)
  | .repeated inner least most greedy => do
    let (inner, flags) ← inner.expression? flags
    pure (.repetition inner least most (greedy != flags.swapGreed), flags)
  | .group change numbered inner => do
    let (inner, _) ← inner.expression? (flags.apply change)
    pure (if numbered then .capture inner else inner, flags)
  | .sequence parts => do
    let (parts, flags) ← expressions? flags parts
    pure (.sequence parts, flags)
  | .alternatives parts => do
    let (parts, flags) ← expressions? flags parts
    pure (.alternatives parts, flags)

/-- The expressions that trees stand for, one after the other. -/
def expressions? (flags : Flags) : List PatternTree → Option (List Expression × Flags)
  | [] => some ([], flags)
  | first :: rest => do
    let (first, flags) ← first.expression? flags
    let (rest, flags) ← expressions? flags rest
    pure (first :: rest, flags)

end

end PatternTree

end Conform
