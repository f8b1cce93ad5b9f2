import Conform.Pattern.Expression

/-!
# The size of matching programs

An expression is matched by a program of states that read bytes, and a pattern is
refused if its program is too large. There are two programs, one that reads forward and
one that reads backward; here they are built as far as their size goes: the numbers of
their states and the bytes of what the states hold. Building stops at the limit, so
counted repetitions cost no more than the limit.

Sets of characters are programs on their UTF-8 bytes. Equal ends of such programs are
built once, as long as a table of limited size remembers them.
-/

namespace Conform.Program

/-! ## Counting -/

/-- A program that is being built: the number of its states, and the bytes of the lists
that they hold. -/
structure Draft where
  states : Nat
  listed : Nat

/-- The bytes of a state beside the list that it may hold. -/
def stateSize : Nat :=
  32

/-- The bytes of a transition on a range of bytes. -/
def transitionSize : Nat :=
  8

/-- The bytes of an alternative in a branching state. -/
def branchSize : Nat :=
  4

/-- The most bytes that a program may have. -/
def sizeLimit : Nat :=
  10 * 1024 * 1024

/-- The bytes of a program. -/
def Draft.size (draft : Draft) : Nat :=
  stateSize * draft.states + draft.listed

/-- A step of building, which fails beyond the limit. -/
abbrev Building :=
  StateT Draft Option

/-- Goes on with a draft within the limit. -/
def proceed (draft : Draft) : Building Unit := fun _ =>
  if draft.size ≤ sizeLimit then some ((), draft) else none

/-- Adds some states and gives the number of the first. -/
def addStates (count : Nat) : Building Nat := do
  let draft ← get
  proceed { draft with states := draft.states + count }
  pure draft.states

/-- Adds a state that holds some bytes of a list. -/
def addState (listed : Nat) : Building Nat := do
  let draft ← get
  proceed ⟨draft.states + 1, draft.listed + listed⟩
  pure draft.states

/-- Adds alternatives to a branching state. -/
def addBranches (count : Nat) : Building Unit := do
  let draft ← get
  proceed { draft with listed := draft.listed + branchSize * count }

/-- A part of a program: its first and last state, and whether the last one branches. -/
structure Part where
  first : Nat
  last : Nat
  branching : Bool

/-- A part of one state that goes on to one other. -/
def Part.single (state : Nat) : Part :=
  ⟨state, state, false⟩

/-- A link from the end of a part takes room only if the end branches. -/
def Part.link (part : Part) : Building Unit :=
  if part.branching then addBranches 1 else pure ()

/-! ## Sets of characters as byte sequences -/

/-- A range of bytes. -/
abbrev ByteRange :=
  Nat × Nat

/-- The UTF-8 bytes of a code point. -/
def utf8Bytes (code : Nat) : List Nat :=
  if code < 0x80 then [code]
  else if code < 0x800 then [0xc0 + code / 64, 0x80 + code % 64]
  else if code < 0x10000 then
    [0xe0 + code / 4096, 0x80 + code / 64 % 64, 0x80 + code % 64]
  else
    [0xf0 + code / 262144, 0x80 + code / 4096 % 64, 0x80 + code / 64 % 64, 0x80 + code % 64]

/-- Cuts a span into spans that start and end where blocks of the given sizes do, or stay
within a block. The sizes ascend. -/
def alignedSpans : List Nat → Nat → Nat → List (Nat × Nat)
  | [], first, last => [(first, last)]
  | size :: sizes, first, last =>
    if first / size = last / size then [(first, last)]
    else
      let inner := if first % size = 0 then first else (first / size + 1) * size
      let outer := if last % size = size - 1 then last else last / size * size - 1
      let front := if inner = first then [] else [(first, inner - 1)]
      let back := if outer = last then [] else [(outer + 1, last)]
      front ++ (if inner ≤ outer then alignedSpans sizes inner outer else []) ++ back

/-- Spans of code points with encodings of one length, and the sizes of the blocks that
have all bytes in common but the last, but the last two, and so on. -/
def encodingSpans : List (Nat × Nat × List Nat) :=
  [(0, 0x7f, []), (0x80, 0x7ff, [64]), (0x800, 0xd7ff, [64, 4096]), (0xe000, 0xffff, [64, 4096]),
    (0x10000, 0x10ffff, [64, 4096, 262144])]

/-- The sequences of byte ranges that encode the characters of a span. -/
def byteSequences (span : Nat × Nat) : List (List ByteRange) :=
  encodingSpans.flatMap (fun (least, most, sizes) =>
    let first := max span.1 least
    let last := min span.2 most
    if first ≤ last then
      (alignedSpans sizes first last).map (fun (first, last) =>
        (utf8Bytes first).zip (utf8Bytes last))
    else [])

/-! ## Shared states -/

/-- A table of limited size from keys to states. Every key has a place by its code, and
the last key at a place is the one remembered. -/
abbrev Memory :=
  Array (List Nat × Nat)

/-- The code of a key. -/
def keyCode (key : List Nat) : UInt64 :=
  key.foldl (fun code number => (code ^^^ number.toUInt64) * 1099511628211) 14695981039346656037

/-- A table of some places without entries; no key is empty. -/
def Memory.empty (places : Nat) : Memory :=
  Array.replicate places ([], 0)

/-- The place of a key. -/
def Memory.place (memory : Memory) (key : List Nat) : Nat :=
  (keyCode key % memory.size.toUInt64).toNat

/-- The state that the table has for a key. -/
def Memory.find? (memory : Memory) (key : List Nat) : Option Nat :=
  match memory[memory.place key]? with
  | some (found, state) => if found = key then some state else none
  | none => none

/-- Remembers a state for a key. -/
def Memory.remember (memory : Memory) (key : List Nat) (state : Nat) : Memory :=
  memory.setIfInBounds (memory.place key) (key, state)

/-- The state of a key, which is added unless the table has it. -/
def Memory.share (memory : Memory) (key : List Nat) (listed : Nat) : Building (Nat × Memory) :=
  match memory.find? key with
  | some state => pure (state, memory)
  | none => do
    let state ← addState listed
    pure (state, memory.remember key state)

/-- Adds the states that read some sequences from their first bytes on, and gives the
number of the state that begins. Sequences next to each other with one first range share
the state behind it; `target` is the state behind the last bytes. -/
def shareForward (target : Nat) :
    Nat → List (List ByteRange) → Memory → Building (Nat × Memory)
  | 0, _, memory => pure (target, memory)
  | depth + 1, sequences, memory => do
    let groups := sequences.splitBy (fun one other => one.head? == other.head?)
    let rec build : List (List (List ByteRange)) → Memory → List Nat →
        Building (List Nat × Memory)
      | [], memory, key => pure (key.reverse, memory)
      | group :: rest, memory, key => do
        let tails := (group.map List.tail).filter (fun tail => !tail.isEmpty)
        let (next, memory) ←
          if tails.isEmpty then pure (target, memory) else shareForward target depth tails memory
        let range := (group.head?.bind List.head?).getD (0, 0)
        build rest memory (next :: range.2 :: range.1 :: key)
    let (key, memory) ← build groups memory []
    memory.share key (transitionSize * groups.length)

/-- Adds the states that read the sequences from their last bytes on. -/
def shareBackward (target : Nat) : List ByteRange → Memory → Building (Nat × Memory)
  | [], memory => pure (target, memory)
  | (first, last) :: rest, memory => do
    let (state, memory) ← memory.share [target, first, last] 0
    shareBackward state rest memory

/-- The states of the sequences that are read backward, with an alternative for each. -/
def branchBackward (target : Nat) : List (List ByteRange) → Memory → Building Unit
  | [], _ => pure ()
  | sequence :: rest, memory => do
    let (_, memory) ← shareBackward target sequence memory
    addBranches 1
    branchBackward target rest memory

/-- A piece of a program that can be built any number of times. What does not depend on
the place is worked out once. -/
structure Piece where
  /-- Builds the piece behind the states of the draft. -/
  add : Building Part

/-- The piece for one character of a set. -/
def setPiece (backward : Bool) (set : CharSet) : Piece :=
  if set.isAscii then
    let listed := transitionSize * set.spans.length
    ⟨do
      let last ← addState 0
      let first ← addState listed
      pure ⟨first, last, false⟩⟩
  else
    let sequences := set.spans.flatMap byteSequences
    if backward then
      ⟨do
        let first ← addState 0
        let last ← addState 0
        branchBackward last sequences (.empty 1000)
        pure ⟨first, last, false⟩⟩
    else
      ⟨do
        let last ← addState 0
        let (first, _) ← shareForward last 4 sequences (.empty 10000)
        pure ⟨first, last, false⟩⟩

/-! ## Alternatives of literals -/

/-- Cuts a list of words at the empty ones. -/
def cutAtEmpty : List (List Nat) → List (List (List Nat))
  | [] => [[]]
  | word :: rest =>
    match word, cutAtEmpty rest with
    | [], chunks => [] :: chunks
    | _, chunk :: chunks => (word :: chunk) :: chunks
    | _, [] => [[word]]

/-- The words that go on behind each first byte. -/
def tailsByByte (words : List (List Nat)) : List (List (List Nat)) :=
  (words.filterMap List.head?).eraseDups.map (fun byte =>
    (words.filter (fun word => word.head? == some byte)).map List.tail)

/-- The states that read one of some words, and the bytes of their lists. The words share
what they begin with, except across the end of a word. The fuel is the length of the
longest word. -/
def wordStates : Nat → List (List Nat) → Nat × Nat
  | 0, _ => (0, 0)
  | fuel + 1, words =>
    if words.all List.isEmpty then (0, 0)
    else
      let distinct := match words with
        | [] :: rest => [] :: rest.dropWhile List.isEmpty
        | _ => words
      let chunks := (cutAtEmpty distinct).map tailsByByte
      let filled := chunks.filter (fun chunk => !chunk.isEmpty)
      let lists := filled.map (fun chunk =>
        if chunk.length = 1 then 0 else transitionSize * chunk.length)
      let own := (1 + filled.length,
        branchSize * (filled.length + chunks.length - 1) + lists.sum)
      filled.flatten.foldl (fun total words =>
        let more := wordStates fuel words
        (total.1 + more.1, total.2 + more.2)) own

/-- The piece for one of some literals. -/
def literalsPiece (backward : Bool) (literals : List (List Char)) : Piece :=
  let words := literals.map (fun characters =>
    let bytes := characters.flatMap (fun character => utf8Bytes character.toNat)
    if backward then bytes.reverse else bytes)
  let (count, listed) := wordStates ((words.map List.length).foldl max 0) words
  ⟨do
    let last ← addState listed
    let first ← addStates count
    pure ⟨first + count - 1, last, false⟩⟩

/-- The characters of a literal. -/
def literal? : Expression → Option (List Char)
  | .literal characters => some characters
  | _ => none

/-! ## Repetitions -/

/-- A part followed by so many copies of a piece. -/
def addCopies (piece : Piece) : Nat → Part → Building Part
  | 0, part => pure part
  | count + 1, part => do
    let next ← piece.add
    part.link
    addCopies piece count ⟨part.first, next.last, next.branching⟩

/-- So many copies, one after the other. -/
def addExactly (piece : Piece) : Nat → Building Part
  | 0 => Part.single <$> addState 0
  | count + 1 => do addCopies piece count (← piece.add)

/-- One copy or none. -/
def addOptional (piece : Piece) : Building Part := do
  let first ← addState 0
  let part ← piece.add
  let last ← addState 0
  part.link
  addBranches 2
  pure ⟨first, last, false⟩

/-- Any number of copies; it takes less if no copy can be empty. -/
def addMany (piece : Piece) (neverEmpty : Bool) : Building Part := do
  if neverEmpty then
    let first ← addState 0
    let part ← piece.add
    part.link
    addBranches 1
    pure ⟨first, first, true⟩
  else
    let part ← piece.add
    part.link
    let first ← addStates 2
    let last ← addState 0
    addBranches 4
    pure ⟨first + 1, last, false⟩

/-- So many copies and any number more behind a last one. -/
def addAtLeast (piece : Piece) : Nat → Building Part
  | 0 => do
    let part ← piece.add
    let last ← addState 0
    part.link
    addBranches 1
    pure ⟨part.first, last, true⟩
  | count + 1 => do
    let front ← addExactly piece (count + 1)
    let part ← piece.add
    let last ← addState 0
    front.link
    part.link
    addBranches 1
    pure ⟨front.first, last, true⟩

/-- Up to so many copies behind a part, any of which may lead to the end. -/
def addUpTo (piece : Piece) : Nat → Part → Building Unit
  | 0, part => part.link
  | count + 1, part => do
    let _ ← addState 0
    let next ← piece.add
    part.link
    addBranches 2
    addUpTo piece count next

/-- A repetition between two counts. -/
def addRepetition (piece : Piece) (neverEmpty : Bool) :
    (least : Nat) → (most : Option Nat) → Building Part
  | 0, some 1 => addOptional piece
  | 0, none => addMany piece neverEmpty
  | least + 1, none => addAtLeast piece least
  | least, some most => do
    let front ← addExactly piece least
    if most = least then pure front
    else
      let last ← addState 0
      addUpTo piece (most - least) front
      pure ⟨front.first, last, false⟩

/-! ## Sequences and alternatives -/

/-- The pieces one after the other, behind what stands in front of them. -/
def addSequence : List Piece → Option Part → Building Part
  | [], some part => pure part
  | [], none => Part.single <$> addState 0
  | piece :: rest, none => do
    let next ← piece.add
    addSequence rest (some next)
  | piece :: rest, some part => do
    let next ← piece.add
    part.link
    addSequence rest (some ⟨part.first, next.last, next.branching⟩)

/-- One of the pieces. Their common start and end stand behind the second one. -/
def addChoice : List Piece → (earlier : Nat) → (edges : Part) → Building Part
  | [], _, edges => pure edges
  | piece :: rest, earlier, edges => do
    let part ← piece.add
    part.link
    addBranches 1
    if earlier = 1 then
      let start ← addStates 2
      addChoice rest 2 ⟨start, start + 1, false⟩
    else addChoice rest (earlier + 1) edges

/-! ## Expressions -/

mutual

/-- The expression whose parts stand in the opposite order. -/
def reversed : Expression → Expression
  | .seq parts => .seq (reversedParts parts [])
  | .either parts => .either (reversedEach parts)
  | .repeated inner least most greedy => .repeated (reversed inner) least most greedy
  | .capture inner => .capture (reversed inner)
  | other => other

/-- The parts in the opposite order, in front of others. -/
def reversedParts : List Expression → List Expression → List Expression
  | [], behind => behind
  | first :: rest, behind => reversedParts rest (reversed first :: behind)

/-- Each part by itself. -/
def reversedEach : List Expression → List Expression
  | [] => []
  | first :: rest => reversed first :: reversedEach rest

end

mutual

/-- The piece for an expression. -/
def pieceOf (backward : Bool) : Expression → Piece
  | .empty => ⟨Part.single <$> addState 0⟩
  | .literal characters =>
    let count := (characters.map Char.utf8Size).sum
    ⟨do
      let first ← addStates count
      pure ⟨first, first + count - 1, false⟩⟩
  | .one set => setPiece backward set
  | .assert _ => ⟨Part.single <$> addState 0⟩
  | .seq parts =>
    let pieces := piecesOf backward parts
    ⟨addSequence pieces none⟩
  | .either parts =>
    match parts.mapM literal? with
    | some literals => literalsPiece backward literals
    | none =>
      let pieces := piecesOf backward parts
      ⟨addChoice pieces 0 ⟨0, 0, false⟩⟩
  | .repeated inner least most _ =>
    let piece := pieceOf backward inner
    let neverEmpty := inner.shortest?.any (0 < ·)
    ⟨addRepetition piece neverEmpty least most⟩
  | .capture inner =>
    let piece := pieceOf backward inner
    if backward then piece
    else
      ⟨do
        let first ← addState 0
        let part ← piece.add
        let last ← addState 0
        part.link
        pure ⟨first, last, false⟩⟩

/-- The pieces for some expressions. -/
def piecesOf (backward : Bool) : List Expression → List Piece
  | [] => []
  | first :: rest => pieceOf backward first :: piecesOf backward rest

end

/-- A program that looks for an expression. Unless matches are bound to the edge of the
text where reading begins, it may first read any bytes. Reading forward remembers where
the match begins and ends. -/
def addProgram (backward : Bool) (expression : Expression) : Building Unit := do
  let bound := if backward then expression.endsText else expression.startsText
  let found := if backward then reversed expression else .capture expression
  if bound then
    let _ ← addState 0
  else
    let _ ← addStates 2
    let _ ← addState transitionSize
    addBranches 2
  let part ← (pieceOf backward found).add
  part.link
  let _ ← addState 0

/-- Whether both programs for an expression are within the limit. -/
def fits (expression : Expression) : Bool :=
  ((addProgram false expression).run ⟨0, 0⟩).isSome &&
    ((addProgram true expression).run ⟨0, 0⟩).isSome

end Conform.Program
