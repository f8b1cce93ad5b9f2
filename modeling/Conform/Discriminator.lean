import Conform.Schema.Resolve

/-!
# Discriminators of unions

A union can often be decided by one property: each variant requires it and restricts it
to literals that no other variant shares. The literals a variant admits at its required
properties are its candidates. The first key that every variant with candidates admits
under one wire name, with no literal in common, discriminates the union; variants
without candidates stay aside.
-/

namespace Conform

/-- A required property of a variant and the literals it is restricted to. -/
structure Candidate where
  key : String
  wireName : Option String
  values : List Literal

/-- How one property decides a union. -/
structure Discriminator where
  /-- The property that decides. -/
  key : String
  /-- Its name on the wire, when it differs. -/
  wireKey : Option String
  /-- The variant of each literal, by index. -/
  table : List (Literal × Nat)
  /-- The variants that the property does not decide, by index. -/
  rest : List Nat

namespace Candidate

/-- Whether two lists hold the same literals in the same order. -/
def sameValues : List Literal → List Literal → Bool
  | [], [] => true
  | left :: rest, left' :: rest' => left.same left' && sameValues rest rest'
  | _, _ => false

/-- Whether two candidates say the same. -/
def agrees (left right : Candidate) : Bool :=
  left.key == right.key && sameValues left.values right.values && left.wireName == right.wireName

end Candidate

namespace Schema

/-- Adds literals that are not yet in the list. -/
def addLiterals (known literals : List Literal) : List Literal :=
  literals.foldl (fun seen literal => if literal.isIn seen then seen else seen ++ [literal]) known

/-- The literals of all options, when each option lists some. -/
def unionLiterals? (definitions : Definitions) (known : List Literal) :
    List Schema → Option (List Literal)
  | [] => some known
  | option :: rest =>
    match option.literals? definitions with
    | some literals => unionLiterals? definitions (addLiterals known literals) rest
    | none => none

/-- The literals that a property's schema restricts it to. -/
def propertyLiterals? (definitions : Definitions) (schema : Schema) : Option (List Literal) :=
  match schema.literals? definitions with
  | some literals => some literals
  | none =>
    match schema.resolve definitions with
    | .union _ options =>
      match unionLiterals? definitions [] options with
      | some [] => none
      | found => found
    | _ => none

/-- The candidates of an object: required properties restricted to literals. -/
def objectCandidates (definitions : Definitions) (properties : List (Property Schema)) :
    List Candidate :=
  (properties.filter (fun property => property.required)).filterMap (fun property =>
    (property.body.propertyLiterals? definitions).map (fun values =>
      ⟨property.name, property.wireName, values⟩))

/-- Adds candidates for keys that have none yet. -/
def addCandidates (known further : List Candidate) : List Candidate :=
  further.foldl (fun known candidate =>
    if known.any (fun other => other.key == candidate.key) then known
    else known ++ [candidate]) known

/-- The candidates of a schema, looking through so many levels of unions and
intersections. An intersection has those of its components, the first of a key counts; a
union has those on which all its branches agree. -/
def candidatesWithin (definitions : Definitions) : Nat → Schema → List Candidate
  | 0, _ => []
  | levels + 1, schema =>
    match schema.resolve definitions with
    | .object _ properties _ => objectCandidates definitions properties
    | .intersection _ components =>
      components.foldl (fun known component =>
        addCandidates known (candidatesWithin definitions levels component)) []
    | .union _ [] => []
    | .union _ (first :: branches) =>
      branches.foldl (fun common branch =>
        let theirs := candidatesWithin definitions levels branch
        common.filter (fun candidate => theirs.any (fun other => candidate.agrees other)))
        (candidatesWithin definitions levels first)
    | _ => []

/-- Most levels of nested unions and intersections that are looked through. -/
def nestingLevels : Nat :=
  9

/-- The candidates of a variant. -/
def candidates (definitions : Definitions) (schema : Schema) : List Candidate :=
  schema.candidatesWithin definitions nestingLevels

end Schema

namespace Discriminator

/-- Enters literals for a variant; nothing when one belongs to another variant. -/
def enter? (variant : Nat) : (table : List (Literal × Nat)) → List Literal →
    Option (List (Literal × Nat))
  | table, [] => some table
  | table, literal :: rest =>
    match table.find? (fun entry => entry.1.same literal) with
    | some (_, owner) => if owner = variant then enter? variant table rest else none
    | none => enter? variant (table ++ [(literal, variant)]) rest

/-- Builds the table of a key from the variants that have candidates; nothing when one of
them lacks the key, wire names differ or literals collide. -/
def tableFor? (key : String) (wireName : Option (Option String)) (table : List (Literal × Nat)) :
    List (Nat × List Candidate) → Option (Option String × List (Literal × Nat))
  | [] => some (wireName.getD none, table)
  | (variant, candidates) :: rest =>
    match candidates.find? (fun candidate => candidate.key == key) with
    | none => none
    | some candidate =>
      if (wireName.getD candidate.wireName) = candidate.wireName then
        match enter? variant table candidate.values with
        | some table => tableFor? key (some candidate.wireName) table rest
        | none => none
      else none

/-- The keys of all candidates in the order of their first appearance. -/
def keysOf (tagged : List (Nat × List Candidate)) : List String :=
  (tagged.flatMap (fun entry => entry.2.map Candidate.key)).foldl
    (fun keys key => if keys.contains key then keys else keys ++ [key]) []

/-- The variants with their candidates, numbered from zero. -/
def numbered (definitions : Definitions) (variants : List Schema) :
    List (Nat × List Candidate) :=
  (variants.map (Schema.candidates definitions)).zipIdx.map (fun entry => (entry.2, entry.1))

/-- The discriminator of a union, if it has one. -/
def find? (definitions : Definitions) (variants : List Schema) : Option Discriminator :=
  let all := numbered definitions variants
  let tagged := all.filter (fun entry => !entry.2.isEmpty)
  let rest := (all.filter (fun entry => entry.2.isEmpty)).map Prod.fst
  if tagged.length < 2 then none
  else
    (keysOf tagged).findSome? (fun key =>
      (tableFor? key none [] tagged).map (fun (wireKey, table) => ⟨key, wireKey, table, rest⟩))

/-- The variant that a literal selects. -/
def variantOf? (discriminator : Discriminator) (literal : Literal) : Option Nat :=
  (discriminator.table.find? (fun entry => entry.1.same literal)).map Prod.snd

/-- The literals that select a variant. -/
def literals (discriminator : Discriminator) : List Literal :=
  discriminator.table.map Prod.fst

end Discriminator

end Conform
