import Conform.Membership

/-!
# Routes to a leaf

A schema is searched for the places where a named leaf is mentioned. The search ends at
the leaf and at names that are directly objects, whose tags tell at run time whether a
value belongs to them. Other names are entered, unless the search is inside them already. Behind
a choice among several real options a value does not tell which option made it, so a
leaf that is not directly an object must not be met there.
-/

namespace Conform.Traversal

/-- A step from a container to parts of it. -/
inductive Step where
  /-- The value of a property. -/
  | property (name : String)
  /-- Every item of an array. -/
  | items
  /-- Every property that is not declared. -/
  | others (declared : List String)
  deriving DecidableEq

/-- Where a plan starts: at a name, possibly behind a choice. -/
structure Entry where
  ref : NamedRef
  ambiguous : Bool
  deriving DecidableEq

/-- What a route leads to. -/
inductive Goal where
  /-- The leaf. -/
  | leaf
  /-- A name that is directly an object, entered where its tag is found. -/
  | tagged (ref : NamedRef)
  /-- A name that is not directly an object and recurs, entered by shape alone. -/
  | shaped (ref : NamedRef) (ambiguous : Bool)
  deriving DecidableEq

/-- The plan that continues a route. -/
def Goal.entry? : Goal → Option Entry
  | .leaf => none
  | .tagged ref => some ⟨ref, false⟩
  | .shaped ref ambiguous => some ⟨ref, ambiguous⟩

/-- Steps and what they lead to. -/
structure Route where
  steps : List Step
  goal : Goal
  deriving DecidableEq

/-- Steps as text. -/
def stepsText (steps : List Step) : String :=
  if steps = [] then "(root)"
  else
    steps.foldl (fun text step =>
      let point := if text.isEmpty then "" else "."
      match step with
      | .property name => text ++ point ++ name
      | .items => text ++ "[]"
      | .others _ => text ++ point ++ "*") ""

/-- What a search meets. -/
inductive Sighting where
  /-- A route, and the choice that it lies behind. -/
  | route (route : Route) (behind : Option String)
  /-- A leaf that cannot be told apart, and the choice that it lies behind. -/
  | ambiguous (path : String)
  deriving DecidableEq

/-- Whether an option of a choice is neither null nor the absence of a value. -/
def isReal (definitions : Definitions) (option : Schema) : Bool :=
  match option.resolve definitions with
  | .null => false
  | .void => false
  | _ => true

/-- The choice that the options lie behind: an outer one, else this one if it is real. -/
def choice (definitions : Definitions) (options : List Schema) (steps : List Step)
    (behind : Option String) : Option String :=
  match behind with
  | some path => some path
  | none =>
    if 1 < (options.filter (isReal definitions)).length then some (stepsText steps) else none

/-- The names that are being searched, each with the count of steps at which it was entered. -/
abbrev Entered :=
  List (NamedRef × Nat)

/-- What a search meets at a name. -/
def atName (definitions : Definitions) (leaf : NamedRef)
    (enter : Entered → List Step → Option String → NamedRef → List Sighting)
    (entered : Entered) (steps : List Step) (behind : Option String) (ref : NamedRef) :
    List Sighting :=
  if ref = leaf then
    match behind with
    | some path =>
      if ref.isObject definitions then [.route ⟨steps, .leaf⟩ behind] else [.ambiguous path]
    | none => [.route ⟨steps, .leaf⟩ none]
  else if ref.isObject definitions then [.route ⟨steps, .tagged ref⟩ none]
  else
    match entered.lookup ref with
    | some depth =>
      if depth < steps.length then [.route ⟨steps, .shaped ref behind.isSome⟩ behind] else []
    | none => enter ((ref, steps.length) :: entered) steps behind ref

mutual

/-- What a search meets in a schema; `enter` searches the definition of a name. -/
def search (definitions : Definitions) (leaf : NamedRef)
    (enter : Entered → List Step → Option String → NamedRef → List Sighting)
    (entered : Entered) (steps : List Step) (behind : Option String) : Schema → List Sighting
  | .named ref => atName definitions leaf enter entered steps behind ref
  | .object _ properties additional =>
    searchProperties definitions leaf enter entered steps behind properties ++
      searchAdditional definitions leaf enter entered
        (steps ++ [.others (Property.names properties)]) behind additional
  | .array _ items _ _ =>
    search definitions leaf enter entered (steps ++ [.items]) behind items
  | .union _ options =>
    searchAll definitions leaf enter entered steps
      (choice definitions options steps behind) options
  | .intersection _ components =>
    searchAll definitions leaf enter entered steps
      (choice definitions components steps behind) components
  | _ => []

/-- What a search meets in schemas of the same place. -/
def searchAll (definitions : Definitions) (leaf : NamedRef)
    (enter : Entered → List Step → Option String → NamedRef → List Sighting)
    (entered : Entered) (steps : List Step) (behind : Option String) :
    List Schema → List Sighting
  | [] => []
  | first :: rest =>
    search definitions leaf enter entered steps behind first ++
      searchAll definitions leaf enter entered steps behind rest

/-- What a search meets in declared properties. -/
def searchProperties (definitions : Definitions) (leaf : NamedRef)
    (enter : Entered → List Step → Option String → NamedRef → List Sighting)
    (entered : Entered) (steps : List Step) (behind : Option String) :
    List (Property Schema) → List Sighting
  | [] => []
  | ⟨name, _, _, body⟩ :: rest =>
    search definitions leaf enter entered (steps ++ [.property name]) behind body ++
      searchProperties definitions leaf enter entered steps behind rest

/-- What a search meets in the schema of other properties. -/
def searchAdditional (definitions : Definitions) (leaf : NamedRef)
    (enter : Entered → List Step → Option String → NamedRef → List Sighting)
    (entered : Entered) (steps : List Step) (behind : Option String) :
    Additional Schema → List Sighting
  | .keep => []
  | .deny => []
  | .each body => search definitions leaf enter entered steps behind body

end

/-- Searches the definition of a name, entering at most so many names inside each other. -/
def enterName (definitions : Definitions) (leaf : NamedRef) :
    Nat → Entered → List Step → Option String → NamedRef → List Sighting
  | 0, _, _, _, _ => []
  | names + 1, entered, steps, behind, ref =>
    search definitions leaf (enterName definitions leaf names) entered steps behind
      (definitions ref)

/-- What a plan meets that starts at a name, behind a choice or not. -/
def sightings (definitions : Definitions) (leaf : NamedRef) (names : Nat) (ref : NamedRef)
    (behind : Option String) : List Sighting :=
  enterName definitions leaf (names + 1) [(ref, 0)] [] behind ref

end Conform.Traversal
