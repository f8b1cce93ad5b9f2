import Conform.Text.Property

/-!
# Regular expressions and what they match

An expression denotes, for a text, which positions a match can end at when it starts
at given positions. The denotation follows the expression, and a text matches when
some match starts anywhere in it.

Expressions are built in a normal form: sequences and alternatives do not hold their
own kind, literals stand together, and alternatives of characters are sets.
-/

namespace Conform

/-- A condition on a position between two characters. -/
inductive Assertion where
  | textStart
  | textEnd
  | lineStart (carriage : Bool)
  | lineEnd (carriage : Bool)
  | wordBoundary (ascii : Bool)
  | noWordBoundary (ascii : Bool)
  | wordStart (ascii : Bool)
  | wordEnd (ascii : Bool)
  | wordStartHalf (ascii : Bool)
  | wordEndHalf (ascii : Bool)
  deriving DecidableEq

/-- A regular expression. -/
inductive Expression where
  /-- The empty text. -/
  | empty
  /-- The characters one after the other. -/
  | literal (characters : List Char)
  /-- One character of a set. -/
  | one (set : CharSet)
  /-- The empty text at a position where the assertion holds. -/
  | assert (assertion : Assertion)
  /-- All parts one after the other. -/
  | seq (parts : List Expression)
  /-- One of the parts. -/
  | either (parts : List Expression)
  /-- At least so often and at most so often, or without bound. Greed tells which match
  is preferred, not which texts match. -/
  | repeated (inner : Expression) (least : Nat) (most : Option Nat) (greedy : Bool)
  /-- A part whose place in a match is remembered. -/
  | capture (inner : Expression)

namespace Assertion

/-- Letters, digits and the underscore of ASCII. -/
def asciiWord : CharSet :=
  .ofTable "30-39 41-5a 5f 61-7a"

/-- Whether a character belongs to words. -/
def isWordCharacter (ascii : Bool) (character : Char) : Bool :=
  (if ascii then asciiWord else Property.word).holds character

/-- The character in front of a position. -/
def charBefore? (text : Array Char) (position : Nat) : Option Char :=
  match position with
  | 0 => none
  | before + 1 => text[before]?

/-- Whether the position has a word character in front of it. -/
def wordBefore (ascii : Bool) (text : Array Char) (position : Nat) : Bool :=
  (charBefore? text position).any (isWordCharacter ascii)

/-- Whether the position has a word character behind it. -/
def wordAfter (ascii : Bool) (text : Array Char) (position : Nat) : Bool :=
  text[position]?.any (isWordCharacter ascii)

/-- Whether the assertion holds at a position. -/
def holds (text : Array Char) (position : Nat) : Assertion → Bool
  | .textStart => position == 0
  | .textEnd => position == text.size
  | .lineStart carriage =>
    position == 0 || charBefore? text position == some '\n' ||
      (carriage && charBefore? text position == some '\r' && text[position]? != some '\n')
  | .lineEnd carriage =>
    position == text.size ||
      (if carriage then
        text[position]? == some '\r' ||
          (text[position]? == some '\n' && charBefore? text position != some '\r')
      else text[position]? == some '\n')
  | .wordBoundary ascii => wordBefore ascii text position != wordAfter ascii text position
  | .noWordBoundary ascii => wordBefore ascii text position == wordAfter ascii text position
  | .wordStart ascii => !wordBefore ascii text position && wordAfter ascii text position
  | .wordEnd ascii => wordBefore ascii text position && !wordAfter ascii text position
  | .wordStartHalf ascii => !wordBefore ascii text position
  | .wordEndHalf ascii => !wordAfter ascii text position

end Assertion

namespace Expression

/-- The positions that the step reaches from `frontier`, in at most `fuel` rounds, added
to those already seen. -/
def grow (step : List Nat → List Nat) : Nat → (frontier seen : List Nat) → List Nat
  | 0, _, seen => seen
  | fuel + 1, frontier, seen =>
    match (step frontier).filter (fun position => !seen.contains position) with
    | [] => seen
    | fresh => grow step fuel fresh (seen ++ fresh)

/-- The step taken so many times. -/
def times (step : List Nat → List Nat) : Nat → List Nat → List Nat
  | _, [] => []
  | 0, positions => positions
  | count + 1, positions => times step count (step positions)

/-- Where a literal that begins at a position ends. -/
def literalEnd? (text : Array Char) : List Char → Nat → Option Nat
  | [], position => some position
  | character :: rest, position =>
    if text[position]? = some character then literalEnd? text rest (position + 1) else none

/-- The position behind a character of the set. -/
def oneEnd? (text : Array Char) (set : CharSet) (position : Nat) : Option Nat :=
  if text[position]?.any set.holds then some (position + 1) else none

mutual

/-- Where matches that start at the given positions can end. -/
def ends (text : Array Char) : Expression → List Nat → List Nat
  | .empty, starts => starts
  | .literal characters, starts => starts.filterMap (literalEnd? text characters)
  | .one set, starts => starts.filterMap (oneEnd? text set)
  | .assert assertion, starts => starts.filter (fun position => assertion.holds text position)
  | .seq parts, starts => endsSeq text parts starts
  | .either parts, starts => endsEither text parts starts []
  | .repeated inner least most _, starts =>
    let reached := times (inner.ends text) least starts
    let rounds := match most with
      | some bound => bound - least
      | none => text.size + 1
    grow (inner.ends text) rounds reached reached
  | .capture inner, starts => inner.ends text starts

/-- Where matches of all parts, one after the other, can end. -/
def endsSeq (text : Array Char) : List Expression → List Nat → List Nat
  | [], starts => starts
  | first :: rest, starts => endsSeq text rest (first.ends text starts)

/-- Where matches of one of the parts can end, added to the positions already reached. -/
def endsEither (text : Array Char) : List Expression → List Nat → List Nat → List Nat
  | [], _, reached => reached
  | first :: rest, starts, reached =>
    let fresh := (first.ends text starts).filter (fun position => !reached.contains position)
    endsEither text rest starts (reached ++ fresh)

end

/-- Whether some part of the text matches. -/
def matchesText (expression : Expression) (text : String) : Bool :=
  let characters := text.toList.toArray
  !(expression.ends characters (List.range (characters.size + 1))).isEmpty

/-! ## Lengths and anchors -/

mutual

/-- The fewest bytes of a match, unless there is none by the form of the expression. -/
def shortest? : Expression → Option Nat
  | .empty => some 0
  | .literal characters => some (characters.map Char.utf8Size).sum
  | .one set => set.spans.head?.map (fun span => (Char.ofNat span.1).utf8Size)
  | .assert _ => some 0
  | .seq parts => shortestSeq? parts
  | .either parts => shortestEither? parts
  | .repeated inner least _ _ => inner.shortest?.map (· * least)
  | .capture inner => inner.shortest?

/-- The fewest bytes of a match of all parts. -/
def shortestSeq? : List Expression → Option Nat
  | [] => some 0
  | first :: rest => do pure ((← first.shortest?) + (← shortestSeq? rest))

/-- The fewest bytes of a match of some part, where every part has matches. -/
def shortestEither? : List Expression → Option Nat
  | [] => none
  | [last] => last.shortest?
  | first :: rest => do pure (min (← first.shortest?) (← shortestEither? rest))

end

mutual

/-- The most bytes of a match, if the form of the expression bounds them. -/
def longest? : Expression → Option Nat
  | .empty => some 0
  | .literal characters => some (characters.map Char.utf8Size).sum
  | .one set => set.spans.getLast?.map (fun span => (Char.ofNat span.2).utf8Size)
  | .assert _ => some 0
  | .seq parts => longestSeq? parts
  | .either parts => longestEither? parts
  | .repeated inner _ most _ => do pure ((← inner.longest?) * (← most))
  | .capture inner => inner.longest?

/-- The most bytes of a match of all parts. -/
def longestSeq? : List Expression → Option Nat
  | [] => some 0
  | first :: rest => do pure ((← first.longest?) + (← longestSeq? rest))

/-- The most bytes of a match of some part. -/
def longestEither? : List Expression → Option Nat
  | [] => none
  | [last] => last.longest?
  | first :: rest => do pure (max (← first.longest?) (← longestEither? rest))

end

/-- Whether every match is empty by the form of the expression. -/
def isEmptyOnly (expression : Expression) : Bool :=
  expression.longest? == some 0

mutual

/-- Whether every match begins at the start of the text by the form of the expression. -/
def startsText : Expression → Bool
  | .assert assertion => assertion = .textStart
  | .seq parts => startsTextSeq parts
  | .either parts => startsTextEither parts
  | .repeated inner least _ _ => 0 < least && inner.startsText
  | .capture inner => inner.startsText
  | _ => false

/-- Whether a part does so before something is matched. -/
def startsTextSeq : List Expression → Bool
  | [] => false
  | first :: rest => first.startsText || (first.isEmptyOnly && startsTextSeq rest)

/-- Whether every part does so. -/
def startsTextEither : List Expression → Bool
  | [] => true
  | first :: rest => first.startsText && startsTextEither rest

end

mutual

/-- Whether every match stops at the end of the text by the form of the expression. -/
def endsText : Expression → Bool
  | .assert assertion => assertion = .textEnd
  | .seq parts => endsTextSeq parts
  | .either parts => endsTextEither parts
  | .repeated inner least _ _ => 0 < least && inner.endsText
  | .capture inner => inner.endsText
  | _ => false

/-- Whether a part does so behind which nothing is matched. -/
def endsTextSeq : List Expression → Bool
  | [] => false
  | first :: rest => endsTextSeq rest || (rest.all isEmptyOnly && first.endsText)

/-- Whether every part does so. -/
def endsTextEither : List Expression → Bool
  | [] => true
  | first :: rest => first.endsText && endsTextEither rest

end

/-! ## Normal form -/

mutual

/-- Whether two expressions are written alike. Captures are remembered apart, so no two
of them are alike. -/
def alike : Expression → Expression → Bool
  | .empty, .empty => true
  | .literal characters, .literal characters' => characters == characters'
  | .one set, .one set' => set.same set'
  | .assert assertion, .assert assertion' => assertion == assertion'
  | .seq parts, .seq parts' => allAlike parts parts'
  | .either parts, .either parts' => allAlike parts parts'
  | .repeated inner least most greedy, .repeated inner' least' most' greedy' =>
    alike inner inner' && least == least' && most == most' && greedy == greedy'
  | _, _ => false

/-- Whether two lists of expressions are written alike. -/
def allAlike : List Expression → List Expression → Bool
  | [], [] => true
  | first :: rest, first' :: rest' => alike first first' && allAlike rest rest'
  | _, _ => false

end

/-- One character of a set; a lone character is a literal. -/
def ofSet (set : CharSet) : Expression :=
  match set.single? with
  | some character => .literal [character]
  | none => .one set

/-- Puts a part in front of a sequence: literals join, and nothing is left out. -/
def pushFront (part : Expression) (parts : List Expression) : List Expression :=
  match part, parts with
  | .empty, _ => parts
  | .literal characters, .literal more :: rest => .literal (characters ++ more) :: rest
  | _, _ => part :: parts

/-- The parts one after the other. -/
def sequence (parts : List Expression) : Expression :=
  let flat := parts.flatMap (fun part =>
    match part with
    | .seq inner => inner
    | _ => [part])
  match flat.foldr pushFront [] with
  | [] => .empty
  | [part] => part
  | parts => .seq parts

/-- The only character of a literal. -/
def lone? : Expression → Option Char
  | .literal [character] => some character
  | _ => none

/-- The set of which an expression takes one character. -/
def set? : Expression → Option CharSet
  | .one set => some set
  | _ => none

/-- The alternatives as one set, if all are characters or all are sets. -/
def asSet? (parts : List Expression) : Option CharSet :=
  match parts.mapM lone? with
  | some characters => some (.unions (characters.map (fun character => .single character.toNat)))
  | none => (parts.mapM set?).map CharSet.unions

/-- One of the parts. -/
def choice (parts : List Expression) : Expression :=
  let flat := parts.flatMap (fun part =>
    match part with
    | .either inner => inner
    | _ => [part])
  match flat with
  | [] => .one .empty
  | [part] => part
  | parts =>
    match asSet? parts with
    | some set => ofSet set
    | none => .either parts

/-- How many parts two sequences share at their start. -/
def sharedLength (parts others : List Expression) : Nat :=
  ((parts.zip others).takeWhile (fun (part, other) => part.alike other)).length

/-- The parts of a sequence. -/
def seqParts? : Expression → Option (List Expression)
  | .seq parts => some parts
  | _ => none

/-- One of the parts; what all of them begin with is put in front of the alternatives. -/
def alternatives (parts : List Expression) : Expression :=
  let chosen := choice parts
  match chosen with
  | .either branches =>
    match branches.mapM seqParts? with
    | some (first :: others) =>
      let shared := others.foldl (fun length other => min length (sharedLength first other))
        first.length
      if shared = 0 then chosen
      else
        sequence (first.take shared ++
          [choice ((first :: others).map (fun parts => sequence (parts.drop shared)))])
    | _ => chosen
  | _ => chosen

/-- A repetition. Of what matches nothing but the empty text one round is enough; no
round is the empty text, and one round is the expression itself. -/
def repetition (inner : Expression) (least : Nat) (most : Option Nat) (greedy : Bool) :
    Expression :=
  let (least, most) :=
    if inner.isEmptyOnly then (min least 1, some (min (most.getD 1) 1)) else (least, most)
  if least = 0 ∧ most = some 0 then .empty
  else if least = 1 ∧ most = some 1 then inner
  else .repeated inner least most greedy

end Expression

end Conform
