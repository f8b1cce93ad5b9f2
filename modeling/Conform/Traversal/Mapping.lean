import Conform.Traversal.Plan

/-!
# Mapping the leaves of a value

The plans are followed through a value. At each leaf a transform is called, and the
containers above a changed leaf are made anew while all others stay shared. A call sees
the calls before it, so a transform may depend on them. Running all transforms on the
leaves of the input first and putting the results in place afterwards is the second way.
-/

namespace Conform.Traversal

/-- A call of a transform: where, on what, and what it answered. -/
structure Call where
  position : List Value.Position
  argument : Value
  answer : Value

/-- What to make of a leaf, after the calls so far, at a position. -/
abbrev Transform :=
  List Call → List Value.Position → Value → Value

/-- A value with the calls that were made on the way to it. -/
abbrev Progress :=
  Value × List Call

/-- Maps items in order: whether one changed, the items, and the calls. -/
def mapItems (next : Nat → Value → List Call → Except Stop Progress) :
    Nat → List Value → List Call → Except Stop (Bool × List Value × List Call)
  | _, [], calls => .ok (false, [], calls)
  | index, item :: rest, calls =>
    match next index item calls with
    | .error stop => .error stop
    | .ok (answer, calls) =>
      match mapItems next (index + 1) rest calls with
      | .error stop => .error stop
      | .ok (changed, answers, calls) =>
        if answer.same item then .ok (changed, item :: answers, calls)
        else .ok (true, answer :: answers, calls)

/-- Maps the fields that are not declared, in order: whether one changed, the fields,
and the calls. -/
def mapFields (next : Nat → String → Value → List Call → Except Stop Progress)
    (declared : List String) :
    Nat → Fields Value → List Call → Except Stop (Bool × Fields Value × List Call)
  | _, [], calls => .ok (false, [], calls)
  | index, (key, value) :: rest, calls =>
    if declared.contains key || value.isUndefined then
      match mapFields next declared (index + 1) rest calls with
      | .error stop => .error stop
      | .ok (changed, answers, calls) => .ok (changed, (key, value) :: answers, calls)
    else
      match next index key value calls with
      | .error stop => .error stop
      | .ok (answer, calls) =>
        match mapFields next declared (index + 1) rest calls with
        | .error stop => .error stop
        | .ok (changed, answers, calls) =>
          if answer.same value then .ok (changed, (key, value) :: answers, calls)
          else .ok (true, (key, answer) :: answers, calls)

/-- Takes steps to the end, where `finish` continues, and makes the containers on the
way anew when what they hold changed. -/
def mapSteps (finish : Identity → List Value.Position → Value → List Call → Except Stop Progress) :
    List Step → Identity → List Value.Position → Value → List Call → Except Stop Progress
  | [], place, position, value, calls => finish place position value calls
  | step :: rest, place, position, value, calls =>
    match step, value with
    | .property name, .object content fields tags =>
      let child := (Fields.get? name fields).getD .undefined
      if child.isUndefined then .ok (value, calls)
      else
        match mapSteps finish rest (place.part 0) (position ++ [.key name]) child calls with
        | .error stop => .error stop
        | .ok (answer, calls) =>
          if answer.same child then .ok (value, calls)
          else .ok (.object (.revised content place) (Fields.insert name answer fields) tags, calls)
    | .others declared, .object content fields tags =>
      match mapFields (fun index key child calls =>
          mapSteps finish rest (place.part index) (position ++ [.key key]) child calls)
          declared 0 fields calls with
      | .error stop => .error stop
      | .ok (true, answers, calls) =>
        .ok (.object (.revised content place) answers tags, calls)
      | .ok (false, _, calls) => .ok (value, calls)
    | .items, .array content items tags =>
      match mapItems (fun index child calls =>
          mapSteps finish rest (place.part index) (position ++ [.index index]) child calls)
          0 items calls with
      | .error stop => .error stop
      | .ok (true, answers, calls) =>
        .ok (.array (.revised content place) answers tags, calls)
      | .ok (false, _, calls) => .ok (value, calls)
    | _, _ => .ok (value, calls)

/-- Follows routes one after the other, each from what the earlier ones left. -/
def mapRoutes
    (finish : Goal → Identity → List Value.Position → Value → List Call → Except Stop Progress) :
    Nat → List Route → Identity → List Value.Position → Value → List Call → Except Stop Progress
  | _, [], _, _, value, calls => .ok (value, calls)
  | index, route :: rest, place, position, value, calls =>
    match mapSteps (finish route.goal) route.steps (place.part index) position value calls with
    | .error stop => .error stop
    | .ok (answer, calls) => mapRoutes finish (index + 1) rest place position answer calls

/-- What the mapping of a value rests on. -/
structure Terms where
  /-- The definitions of names. -/
  definitions : Definitions
  /-- What validators look up where a leaf or a name on the way has to be recognised. -/
  surroundings : Surroundings
  /-- Most nested calls of a validator. -/
  limit : Nat

/-- What happens at the end of a route: the transform at a leaf, another plan at a
name whose tag is found or that is entered by shape, and nothing elsewhere. -/
def mapGoal (terms : Terms) (leaf : NamedRef) (transform : Transform)
    (enter : Entry → Identity → List Value.Position → Value → List Call → Except Stop Progress)
    (goal : Goal) (place : Identity) (position : List Value.Position) (value : Value)
    (calls : List Call) : Except Stop Progress :=
  match goal with
  | .leaf =>
    match leaf.isA terms.definitions terms.surroundings terms.limit place value with
    | .error stop => .error stop
    | .ok answer =>
      if answer.getD true then
        let result := transform calls position value
        .ok (result, calls ++ [⟨position, value, result⟩])
      else .ok (value, calls)
  | .tagged ref =>
    match ref.isA terms.definitions terms.surroundings terms.limit place value with
    | .error stop => .error stop
    | .ok (some true) => enter ⟨ref, false⟩ place position value calls
    | .ok _ => .ok (value, calls)
  | .shaped ref ambiguous => enter ⟨ref, ambiguous⟩ place position value calls

/-- Follows the routes of a plan, with at most `fuel` plans inside each other. -/
def mapPlan (terms : Terms) (leaf : NamedRef) (plans : Plans) (transform : Transform) :
    (fuel : Nat) → Entry → Identity → List Value.Position → Value → List Call →
    Except Stop Progress
  | 0, _, _, _, _, _ => .error .exhausted
  | fuel + 1, entry, place, position, value, calls =>
    match plans.lookup entry with
    | none => .ok (value, calls)
    | some routes =>
      mapRoutes (mapGoal terms leaf transform (mapPlan terms leaf plans transform fuel))
        0 routes place position value calls

/-- Maps a value that belongs to the root; the calls are listed with the result. -/
def map (terms : Terms) (traversal : Traversal) (transform : Transform) (fuel : Nat)
    (place : Identity) (value : Value) : Except Stop (Except Fault Progress) :=
  match traversal.root.isA terms.definitions terms.surroundings terms.limit place value with
  | .error stop => .error stop
  | .ok (some false) => .ok (.error (.rootMismatch traversal.root.name))
  | .ok _ =>
    match mapPlan terms traversal.leaf traversal.plans transform fuel traversal.start place []
        value [] with
    | .error stop => .error stop
    | .ok progress => .ok (.ok progress)

/-- The transform that leaves everything as it is. -/
def unchanged : Transform :=
  fun _ _ value => value

/-- Positions with the values found there first. -/
abbrev Leaves :=
  List (List Value.Position × Value)

/-- The positions of the calls, each once, with the first argument. -/
def leavesOf (calls : List Call) : Leaves :=
  calls.foldl (fun leaves call =>
    if leaves.any (fun leaf => leaf.1 = call.position) then leaves
    else leaves ++ [(call.position, call.argument)]) []

/-- The leaves of a value that belongs to the root. -/
def leaves (terms : Terms) (traversal : Traversal) (fuel : Nat) (place : Identity)
    (value : Value) : Except Stop (Except Fault Leaves) :=
  match traversal.map terms unchanged fuel place value with
  | .error stop => .error stop
  | .ok (.error fault) => .ok (.error fault)
  | .ok (.ok (_, calls)) => .ok (.ok (leavesOf calls))

/-- Puts results in place: at each of their positions, wherever a leaf is met there. -/
def replacing (results : Leaves) : Transform :=
  fun _ position value => (results.lookup position).getD value

/-- The results of all leaves, or the first fault in the order of the leaves. -/
def resultsOf (task : Nat → Value → Except Fault Value) : Nat → Leaves → Except Fault Leaves
  | _, [] => .ok []
  | number, (position, value) :: rest =>
    match task number value with
    | .error fault => .error fault
    | .ok result => (resultsOf task (number + 1) rest).map (fun results =>
      (position, result) :: results)

/-- Maps a value by tasks, one for each leaf and numbered from one: all are run on the
leaves of the input, and the results are put in place together. -/
def mapAtOnce (terms : Terms) (traversal : Traversal) (task : Nat → Value → Except Fault Value)
    (fuel : Nat) (place : Identity) (value : Value) : Except Stop (Except Fault Value) :=
  match traversal.leaves terms fuel place value with
  | .error stop => .error stop
  | .ok (.error fault) => .ok (.error fault)
  | .ok (.ok found) =>
    match resultsOf task 1 found with
    | .error fault => .ok (.error fault)
    | .ok results =>
      match mapPlan terms traversal.leaf traversal.plans (replacing results) fuel traversal.start
          place [] value [] with
      | .error stop => .error stop
      | .ok (answer, _) => .ok (.ok answer)

end Conform.Traversal
