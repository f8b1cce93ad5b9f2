import Conform.Pattern.Tree
import Conform.Text.Blank
import Conform.Text.Named

/-!
# Reading patterns

The concrete syntax: alternatives, groups with flags or names, repetitions, classes
with set operations, escapes and assertions. There is no look-around and there are no
back-references. A text outside the syntax has no tree. Where blanks and comments are
skipped, they may stand inside escapes and counts, too.
-/

namespace Conform.PatternTree

/-- The input behind blanks and comments. -/
def skipComments (inComment : Bool) : List Char → List Char
  | [] => []
  | character :: rest =>
    if inComment then skipComments (character != '\n') rest
    else if isBlank character then skipComments false rest
    else if character = '#' then skipComments true rest
    else character :: rest

/-- The input behind what is to be skipped. -/
def skip (skipping : Bool) (input : List Char) : List Char :=
  if skipping then skipComments false input else input

/-- What one escape or plain character denotes. -/
inductive Atom where
  | literal (character : Char) (asByte : Bool)
  | property (negated : Bool) (set : CharSet)
  | shorthand (negated : Bool) (kind : Shorthand)
  | mark (kind : Mark)

/-! ## Numbers -/

/-- The decimal digits in front and the rest. -/
def readDigits (skipping : Bool) : Nat → List Char → List Char × List Char
  | 0, input => ([], input)
  | fuel + 1, input =>
    match input with
    | digit :: rest =>
      if digit.isDigit then
        let (digits, rest) := readDigits skipping fuel (skip skipping rest)
        (digit :: digits, rest)
      else ([], input)
    | [] => ([], [])

/-- A decimal below `2 ^ 32`, blanks around it allowed. -/
def readDecimal? (skipping : Bool) (input : List Char) : Option (Nat × List Char) :=
  let input := input.dropWhile isBlank
  match readDigits skipping input.length input with
  | ([], _) => none
  | (digits, rest) =>
    let value := digits.foldl (fun value digit => value * 10 + (digit.toNat - 48)) 0
    if value < 0x100000000 then some (value, skip skipping (rest.dropWhile isBlank)) else none

/-- The bounds of a counted repetition, after the opening brace. -/
def readBounds? (skipping : Bool) (input : List Char) :
    Option ((Nat × Option Nat) × List Char) := do
  let (least, rest) ← readDecimal? skipping (skip skipping input)
  match rest with
  | '\x7d' :: rest => pure ((least, some least), rest)
  | ',' :: rest =>
    match skip skipping rest with
    | '\x7d' :: rest => pure ((least, none), rest)
    | rest => do
      let (most, rest) ← readDecimal? skipping rest
      match rest with
      | '\x7d' :: rest => if least ≤ most then pure ((least, some most), rest) else none
      | _ => none
  | _ => none

/-- The character of a code point, if there is one. -/
def charOf? (code : Nat) : Option Char :=
  if code.isValidChar then some (Char.ofNat code) else none

/-- So many hexadecimal digits. -/
def readHexDigits? (skipping : Bool) (value : Nat) : Nat → List Char → Option (Nat × List Char)
  | 0, input => some (value, input)
  | count + 1, input =>
    match input with
    | digit :: rest =>
      match hexValue? digit with
      | some low => readHexDigits? skipping (value * 16 + low) count (skip skipping rest)
      | none => none
    | [] => none

/-- Hexadecimal digits up to a closing brace. -/
def readHexBraces? (skipping seen : Bool) (value : Nat) :
    Nat → List Char → Option (Nat × List Char)
  | 0, _ => none
  | fuel + 1, input =>
    match skip skipping input with
    | '\x7d' :: rest => if seen then some (value, skip skipping rest) else none
    | digit :: rest =>
      match hexValue? digit with
      | some low => readHexBraces? skipping true (value * 16 + low) fuel rest
      | none => none
    | [] => none

/-- The character written by its code point after `x`, `u` or `U`, with so many digits or
in braces. Two digits without braces write a byte. -/
def readHexEscape? (skipping : Bool) (count : Nat) (input : List Char) :
    Option (Atom × List Char) := do
  match skip skipping input with
  | '\x7b' :: rest =>
    let (code, rest) ← readHexBraces? skipping false 0 (rest.length + 1) rest
    pure (.literal (← charOf? code) false, rest)
  | input =>
    let (code, rest) ← readHexDigits? skipping 0 count input
    pure (.literal (← charOf? code) (count == 2), rest)

/-! ## Classes by name -/

/-- The text up to the first occurrence of a separator and the text behind it. -/
def splitAt? (separator : List Char) : List Char → Option (List Char × List Char)
  | [] => none
  | character :: rest =>
    if separator.isPrefixOf (character :: rest) then
      some ([], (character :: rest).drop separator.length)
    else (splitAt? separator rest).map (fun (front, behind) => (character :: front, behind))

/-- What stands between the braces of a property: whether the value is to differ, and the
set. -/
def propertyNamed? (text : List Char) : Option (Bool × CharSet) :=
  match splitAt? ['!', '='] text with
  | some (name, value) => (CharSet.ofNameAndValue? name value).map (fun set => (true, set))
  | none =>
    match (splitAt? [':'] text).or (splitAt? ['='] text) with
    | some (name, value) => (CharSet.ofNameAndValue? name value).map (fun set => (false, set))
    | none => (CharSet.ofName? text).map (fun set => (false, set))

/-- The characters up to a closing brace. -/
def readBraces? (skipping : Bool) : Nat → List Char → Option (List Char × List Char)
  | 0, _ => none
  | fuel + 1, input =>
    match skip skipping input with
    | [] => none
    | '\x7d' :: rest => some ([], rest)
    | character :: rest =>
      (readBraces? skipping fuel rest).map (fun (text, rest) => (character :: text, rest))

/-- A property class, after `p` or `P`. -/
def readProperty? (skipping negated : Bool) (input : List Char) : Option (Atom × List Char) := do
  match skip skipping input with
  | '\x7b' :: rest =>
    let (text, rest) ← readBraces? skipping (rest.length + 1) rest
    let (differs, set) ← propertyNamed? text
    pure (.property (negated != differs) set, rest)
  | '\\' :: _ => none
  | letter :: rest => pure (.property negated (← CharSet.ofName? [letter]), skip skipping rest)
  | [] => none

/-- The ASCII classes with their names. -/
def asciiSets : List (String × CharSet) :=
  [("alnum", .ofTable "30-39 41-5a 61-7a"), ("alpha", .ofTable "41-5a 61-7a"),
    ("ascii", .ofTable "0-7f"), ("blank", .ofTable "9 20"), ("cntrl", .ofTable "0-1f 7f"),
    ("digit", .ofTable "30-39"), ("graph", .ofTable "21-7e"), ("lower", .ofTable "61-7a"),
    ("print", .ofTable "20-7e"), ("punct", .ofTable "21-2f 3a-40 5b-60 7b-7e"),
    ("space", .ofTable "9-d 20"), ("upper", .ofTable "41-5a"),
    ("word", .ofTable "30-39 41-5a 5f 61-7a"), ("xdigit", .ofTable "30-39 41-46 61-66")]

/-! ## Escapes -/

/-- Whether a backslash in front leaves the character as it is. -/
def isEscapable (character : Char) : Bool :=
  character.toNat < 128 && !character.isAlphanum && character != '<' && character != '>'

/-- The word boundary with this name in braces. -/
def boundaryNamed? (name : String) : Option Mark :=
  if name = "start" then some .wordStart
  else if name = "end" then some .wordEnd
  else if name = "start-half" then some .wordStartHalf
  else if name = "end-half" then some .wordEndHalf
  else none

/-- The letters of a name in braces and the rest. -/
def readBoundaryName (skipping : Bool) : Nat → List Char → List Char × List Char
  | 0, input => ([], input)
  | fuel + 1, input =>
    match input with
    | letter :: rest =>
      if letter.isAlpha || letter == '-' then
        let (name, rest) := readBoundaryName skipping fuel (skip skipping rest)
        (letter :: name, rest)
      else ([], input)
    | [] => ([], [])

/-- A word boundary, after `b`; a brace may name a special one. -/
def readBoundary? (skipping : Bool) (input : List Char) : Option (Mark × List Char) :=
  match input with
  | '\x7b' :: rest =>
    match skip skipping rest with
    | [] => none
    | first :: more =>
      if first.isAlpha || first == '-' then
        match readBoundaryName skipping (more.length + 1) (first :: more) with
        | (name, '\x7d' :: rest) =>
          (boundaryNamed? (String.ofList name)).map (fun found => (found, rest))
        | _ => none
      else some (.wordBoundary, input)
  | _ => some (.wordBoundary, input)

/-- What an escape denotes, after its backslash. -/
def readEscape? (skipping : Bool) : List Char → Option (Atom × List Char)
  | [] => none
  | letter :: rest =>
    let literal (character : Char) := some (Atom.literal character false, rest)
    let mark (kind : Mark) := some (Atom.mark kind, rest)
    let shorthand (negated : Bool) (kind : Shorthand) := some (Atom.shorthand negated kind, rest)
    match letter with
    | 'x' => readHexEscape? skipping 2 rest
    | 'u' => readHexEscape? skipping 4 rest
    | 'U' => readHexEscape? skipping 8 rest
    | 'p' => readProperty? skipping false rest
    | 'P' => readProperty? skipping true rest
    | 'd' => shorthand false .digit
    | 'D' => shorthand true .digit
    | 's' => shorthand false .blank
    | 'S' => shorthand true .blank
    | 'w' => shorthand false .word
    | 'W' => shorthand true .word
    | 'a' => literal '\x07'
    | 'f' => literal '\x0c'
    | 't' => literal '\t'
    | 'n' => literal '\n'
    | 'r' => literal '\r'
    | 'v' => literal '\x0b'
    | 'A' => mark .textStart
    | 'z' => mark .textEnd
    | 'b' => (readBoundary? skipping rest).map (fun (kind, rest) => (.mark kind, rest))
    | 'B' => mark .noWordBoundary
    | '<' => mark .wordStart
    | '>' => mark .wordEnd
    | _ => if isEscapable letter then literal letter else none

/-! ## Classes in brackets -/

/-- A class that is being read: the pending operation and the parts since, last first. -/
structure OpenClass where
  /-- What the parts so far will be combined with. -/
  pending : Option (ClassOperation × ClassTree)
  /-- The parts so far. -/
  parts : List ClassTree

/-- The class read so far. -/
def OpenClass.close (state : OpenClass) : ClassTree :=
  let right := ClassTree.ofParts state.parts.reverse
  match state.pending with
  | none => right
  | some (operation, left) => .operation operation left right

/-- Adds a part. -/
def OpenClass.add (state : OpenClass) (part : ClassTree) : OpenClass :=
  { state with parts := part :: state.parts }

/-- Begins the right side of an operation. -/
def OpenClass.operate (state : OpenClass) (operation : ClassOperation) : OpenClass :=
  ⟨some (operation, state.close), []⟩

/-- An ASCII class such as `[:alpha:]`, after its opening bracket. -/
def readAsciiClass? : List Char → Option (ClassTree × List Char)
  | ':' :: rest =>
    let (negated, rest) := match rest with
      | '^' :: rest => (true, rest)
      | _ => (false, rest)
    let (name, rest) := rest.span (fun character => character != ':')
    match rest with
    | ':' :: ']' :: rest =>
      (asciiSets.lookup (String.ofList name)).map (fun set => (.ascii negated set, rest))
    | _ => none
  | _ => none

/-- One item of a class: an escape or a plain character. -/
def readClassAtom? (skipping : Bool) : List Char → Option (Atom × List Char)
  | '\\' :: rest => readEscape? skipping rest
  | character :: rest => some (.literal character false, skip skipping rest)
  | [] => none

/-- Whether a hyphen here stands for itself or begins an operation, not a range. -/
def endsItem (skipping : Bool) (input : List Char) : Bool :=
  match input with
  | '-' :: rest =>
    match skip skipping rest with
    | ']' :: _ => true
    | '-' :: _ => true
    | _ => false
  | _ => true

/-- One item or range of a class. -/
def readClassItem? (skipping : Bool) (input : List Char) : Option (ClassTree × List Char) := do
  let (first, rest) ← readClassAtom? skipping input
  let rest := skip skipping rest
  if endsItem skipping rest then
    match first with
    | .literal character _ => pure (.literal character, rest)
    | .property negated set => pure (.property negated set, rest)
    | .shorthand negated kind => pure (.shorthand negated kind, rest)
    | .mark _ => none
  else
    let (last, rest) ← readClassAtom? skipping (skip skipping (rest.drop 1))
    match first, last with
    | .literal first _, .literal last _ =>
      if first ≤ last then pure (.range first last, rest) else none
    | _, _ => none

/-- Hyphens at the start of a class stand for themselves. -/
def readHyphens (skipping : Bool) : Nat → OpenClass → List Char → OpenClass × List Char
  | 0, state, input => (state, input)
  | fuel + 1, state, input =>
    match input with
    | '-' :: rest => readHyphens skipping fuel (state.add (.literal '-')) (skip skipping rest)
    | _ => (state, input)

/-- The start of a class after its bracket: whether it is complemented, and the
characters that stand for themselves only here. -/
def openClass (skipping : Bool) (input : List Char) : Bool × OpenClass × List Char :=
  let input := skip skipping input
  let (negated, input) := match input with
    | '^' :: rest => (true, skip skipping rest)
    | _ => (false, input)
  let start : OpenClass := ⟨none, []⟩
  match input with
  | ']' :: rest => (negated, start.add (.literal ']'), skip skipping rest)
  | _ =>
    let (state, input) := readHyphens skipping input.length start input
    (negated, state, input)

/-- The rest of a class up to its closing bracket, with at most `room` brackets inside
one another. -/
def readClass? (skipping : Bool) :
    (fuel room : Nat) → OpenClass → List Char → Option (ClassTree × List Char)
  | 0, _, _, _ => none
  | fuel + 1, room, state, input =>
    match skip skipping input with
    | [] => none
    | ']' :: rest => some (state.close, rest)
    | '[' :: rest =>
      match readAsciiClass? rest with
      | some (part, rest) => readClass? skipping fuel room (state.add part) rest
      | none =>
        if room = 0 then none
        else
          let (negated, inner, rest) := openClass skipping rest
          match readClass? skipping fuel (room - 1) inner rest with
          | some (content, rest) =>
            readClass? skipping fuel room (state.add (.bracketed negated content)) rest
          | none => none
    | '&' :: '&' :: rest => readClass? skipping fuel room (state.operate .inter) rest
    | '-' :: '-' :: rest => readClass? skipping fuel room (state.operate .diff) rest
    | '~' :: '~' :: rest => readClass? skipping fuel room (state.operate .symDiff) rest
    | input =>
      match readClassItem? skipping input with
      | some (part, rest) => readClass? skipping fuel room (state.add part) rest
      | none => none

/-! ## Groups -/

/-- The flag with this letter. -/
def flagOf? : Char → Option Flag
  | 'i' => some .ignoreCase
  | 'm' => some .multiLine
  | 's' => some .dotAll
  | 'U' => some .swapGreed
  | 'u' => some .unicode
  | 'R' => some .carriage
  | 'x' => some .ignoreSpace
  | _ => none

/-- Flag letters up to a colon or a closing parenthesis; each letter and the minus
occur at most once, and the minus is not last. -/
def readFlags? (change : FlagChange) (seen : List Char) :
    List Char → Option (FlagChange × List Char)
  | [] => none
  | letter :: rest =>
    if letter = ':' ∨ letter = ')' then
      if seen.head? = some '-' then none else some (change, letter :: rest)
    else if letter ∈ seen then none
    else if letter = '-' then readFlags? change (letter :: seen) rest
    else
      match flagOf? letter with
      | some flag => readFlags? ((flag, !seen.contains '-') :: change) (letter :: seen) rest
      | none => none

/-- Characters of names that newer versions of the standard assigned. -/
def laterNameCharacters : CharSet :=
  .ofTable "88f c5c cdc a7ce-a7cf a7d2 a7d4 a7f1 10940-10959 10ec5-10ec7 10efa-10efb 11b60-11b67
    11db0-11ddb 16ea0-16eb8 16ebb-16ed3 16ff2-16ff6 187f8-187ff 18d09-18d1e 18d80-18df2
    1e6c0-1e6de 1e6e0-1e6f5 1e6fe-1e6ff 2b73a-2b73f 2cea2-2cead 323b0-33479"

/-- Characters that may begin a group name. -/
def nameStart : CharSet :=
  .unions [Property.alphabetic, laterNameCharacters, .ofTable "5f"]

/-- Characters that may continue a group name. -/
def nameContinue : CharSet :=
  .unions [nameStart, Category.number, .ofTable "2e 5b 5d 11de0-11de9"]

/-- A group name up to its closing angle bracket. -/
def readGroupName? (input : List Char) : Option (String × List Char) :=
  let (name, rest) := input.span (fun character => character != '>')
  match name, rest with
  | first :: more, _ :: rest =>
    if nameStart.holds first && more.all nameContinue.holds then some (String.ofList name, rest)
    else none
  | _, _ => none

/-- How a group begins. -/
inductive GroupOpening where
  /-- Flags for the rest of the enclosing group. -/
  | setFlags (change : FlagChange)
  /-- A group without a number, with flags. -/
  | flagged (change : FlagChange)
  /-- A group with a number. -/
  | numbered
  /-- A group with a number and a name. -/
  | named (name : String)

/-- The opening of a group, after its parenthesis. -/
def readOpening? (skipping : Bool) (input : List Char) : Option (GroupOpening × List Char) :=
  match skip skipping input with
  | '?' :: '=' :: _ => none
  | '?' :: '!' :: _ => none
  | '?' :: '<' :: '=' :: _ => none
  | '?' :: '<' :: '!' :: _ => none
  | '?' :: 'P' :: '<' :: rest =>
    (readGroupName? rest).map (fun (name, rest) => (.named name, rest))
  | '?' :: '<' :: rest => (readGroupName? rest).map (fun (name, rest) => (.named name, rest))
  | '?' :: rest =>
    match readFlags? [] [] rest with
    | some (change, ':' :: behind) => some (.flagged change, behind)
    | some (change, _ :: behind) =>
      if rest.head? = some ')' then none else some (.setFlags change, behind)
    | _ => none
  | rest => some (.numbered, rest)

/-! ## Patterns -/

/-- Whether blanks are skipped after a change of flags. -/
def skippingAfter (skipping : Bool) (change : FlagChange) : Bool :=
  (change.lookup .ignoreSpace).getD skipping

/-- Repeats the last part of a sequence; flags and nothing cannot be repeated. -/
def repeatLast? (parts : List PatternTree) (least : Nat) (most : Option Nat) (greedy : Bool) :
    Option (List PatternTree) :=
  match parts with
  | [] => none
  | .setFlags _ :: _ => none
  | inner :: rest => some (.repeated inner least most greedy :: rest)

/-- The alternatives read so far with the last one added; all lists are last first. -/
def closeAlternatives (branches : List PatternTree) (parts : List PatternTree) : PatternTree :=
  ofParts .alternatives (ofParts .sequence parts.reverse :: branches).reverse

/-- A pattern that is being read: the group names seen, and, last first, the alternatives
of the innermost group and the parts of the current one. -/
structure OpenPattern where
  names : List String
  branches : List PatternTree
  parts : List PatternTree

/-- The alternatives up to the end of the input or of the group, with at most `room`
groups inside one another: the tree, the group names seen, and the rest. -/
def readBody? : (fuel room : Nat) → (skipping : Bool) → OpenPattern → List Char →
    Option (PatternTree × List String × List Char)
  | 0, _, _, _, _ => none
  | fuel + 1, room, skipping, state, input =>
    let push (found : PatternTree) (rest : List Char) :=
      readBody? fuel room skipping { state with parts := found :: state.parts } rest
    let repeatLast (least : Nat) (most : Option Nat) (rest : List Char) :=
      let (greedy, rest) := match rest with
        | '?' :: rest => (false, rest)
        | _ => (true, rest)
      match repeatLast? state.parts least most greedy with
      | some parts => readBody? fuel room skipping { state with parts := parts } rest
      | none => none
    match skip skipping input with
    | [] => some (closeAlternatives state.branches state.parts, state.names, [])
    | ')' :: rest => some (closeAlternatives state.branches state.parts, state.names, ')' :: rest)
    | '|' :: rest =>
      let branch := ofParts .sequence state.parts.reverse
      readBody? fuel room skipping ⟨state.names, branch :: state.branches, []⟩ rest
    | '(' :: rest =>
      let group (change : FlagChange) (numbered : Bool) (names : List String)
          (rest : List Char) :=
        if room = 0 then none
        else
          match readBody? fuel (room - 1) (skippingAfter skipping change) ⟨names, [], []⟩ rest with
          | some (inner, names, ')' :: rest) =>
            let found := PatternTree.group change numbered inner
            readBody? fuel room skipping ⟨names, state.branches, found :: state.parts⟩ rest
          | _ => none
      match readOpening? skipping rest with
      | some (.setFlags change, rest) =>
        readBody? fuel room (skippingAfter skipping change)
          { state with parts := .setFlags change :: state.parts } rest
      | some (.flagged change, rest) => group change false state.names rest
      | some (.numbered, rest) => group [] true state.names rest
      | some (.named name, rest) =>
        if state.names.contains name then none else group [] true (name :: state.names) rest
      | none => none
    | '[' :: rest =>
      let (negated, inner, rest) := openClass skipping rest
      match readClass? skipping (rest.length + 1) room inner rest with
      | some (content, rest) => push (.bracketed negated content) rest
      | none => none
    | '?' :: rest => repeatLast 0 (some 1) rest
    | '*' :: rest => repeatLast 0 none rest
    | '+' :: rest => repeatLast 1 none rest
    | '\x7b' :: rest =>
      match readBounds? skipping rest with
      | some ((least, most), rest) => repeatLast least most (skip skipping rest)
      | none => none
    | '\\' :: rest =>
      match readEscape? skipping rest with
      | some (.literal character asByte, rest) => push (.literal character asByte) rest
      | some (.property negated set, rest) => push (.property negated set) rest
      | some (.shorthand negated kind, rest) => push (.shorthand negated kind) rest
      | some (.mark kind, rest) => push (.mark kind) rest
      | none => none
    | '.' :: rest => push .dot rest
    | '^' :: rest => push (.mark .caret) rest
    | '$' :: rest => push (.mark .dollar) rest
    | character :: rest => push (.literal character false) rest

/-- How deep the parts of a pattern may be inside one another. -/
def depthLimit : Nat :=
  250

/-- The tree of a text, if the text is a pattern whose parts are not too deep inside one
another. -/
def ofText? (text : String) : Option PatternTree :=
  let input := text.toList
  match readBody? (2 * input.length + 2) depthLimit false ⟨[], [], []⟩ input with
  | some (tree, _, []) => if tree.depth ≤ depthLimit then some tree else none
  | _ => none

end Conform.PatternTree
