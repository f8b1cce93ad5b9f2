import Conform.Fault
import Conform.Traversal.Route

/-!
# Plans from a root to a leaf

A plan holds the routes from one name. The plans that the root's routes lead to are made
one after the other. A plan is live when some chain of routes leads from it to the leaf;
only live plans stay, and of their routes only those to the leaf or to a live plan.
-/

namespace Conform.Traversal

/-- Plans by where they start. -/
abbrev Plans :=
  List (Entry × List Route)

/-- The first leaf that cannot be told apart. -/
def ambiguity? (sightings : List Sighting) : Option String :=
  sightings.findSome? (fun sighting =>
    match sighting with
    | .ambiguous path => some path
    | .route _ _ => none)

/-- The routes met, each once. -/
def routesOf (sightings : List Sighting) : List Route :=
  (sightings.filterMap (fun sighting =>
    match sighting with
    | .ambiguous _ => none
    | .route route _ => some route)).foldl
    (fun routes route => if routes.contains route then routes else routes ++ [route]) []

/-- A name to plan for, and the choice that it lies behind. -/
abbrev Pending :=
  NamedRef × Option String

/-- The plan that the pending name starts. -/
def entryOf (pending : Pending) : Entry :=
  ⟨pending.1, pending.2.isSome⟩

/-- The names to plan for next, with the choices they lie behind. -/
def continuations (sightings : List Sighting) : List Pending :=
  sightings.filterMap (fun sighting =>
    match sighting with
    | .route ⟨_, .tagged ref⟩ _ => some (ref, none)
    | .route ⟨_, .shaped ref _⟩ behind => some (ref, behind)
    | _ => none)

/-- Appends to the queue what is not scheduled yet. -/
def schedule (state : List Pending × List Entry) (found : List Pending) :
    List Pending × List Entry :=
  found.foldl (fun state pending =>
    if state.2.contains (entryOf pending) then state
    else (state.1 ++ [pending], state.2 ++ [entryOf pending])) state

/-- Makes the plans in the queue and those they lead to, at most `fuel` of them; a leaf
that cannot be told apart ends it with the choice it lies behind. -/
def buildPlans (definitions : Definitions) (leaf : NamedRef) (names : Nat) :
    (fuel : Nat) → (queue : List Pending) → (scheduled : List Entry) → Plans →
    Except String Plans
  | 0, _, _, plans => .ok plans
  | _ + 1, [], _, plans => .ok plans
  | fuel + 1, pending :: queue, scheduled, plans =>
    let found := sightings definitions leaf names pending.1 pending.2
    match ambiguity? found with
    | some path => .error path
    | none =>
      let (queue, scheduled) := schedule (queue, scheduled) (continuations found)
      buildPlans definitions leaf names fuel queue scheduled
        (plans ++ [(entryOf pending, routesOf found)])

/-- Whether a route leads to the leaf or to one of the plans. -/
def leadsTo (live : List Entry) (route : Route) : Bool :=
  match route.goal.entry? with
  | none => true
  | some key => live.contains key

/-- Looks at one plan: when it has a route to the leaf or to a plan found so far, it is
found, too. -/
def visit (found : List Entry) (plan : Entry × List Route) : List Entry :=
  if plan.2.any (leadsTo found) then found.insert plan.1 else found

/-- Looks at every plan once; what is found on the way counts for the plans that follow. -/
def sweep (plans : Plans) (found : List Entry) : List Entry :=
  plans.foldl visit found

/-- Looks at every plan again and again, at most `fuel` times, until nothing more is found. -/
def sweepAll (plans : Plans) : (fuel : Nat) → List Entry → List Entry
  | 0, found => found
  | fuel + 1, found =>
    let more := sweep plans found
    if more.length = found.length then more else sweepAll plans fuel more

/-- The live plans. -/
def liveEntries (plans : Plans) : List Entry :=
  sweepAll plans (plans.length + 1) []

/-- Leaves only the plans listed, and of their routes those to the leaf or to such plans. -/
def retain (entries : List Entry) (plans : Plans) : Plans :=
  (plans.filter (fun plan => entries.contains plan.1)).map (fun plan =>
    (plan.1, plan.2.filter (leadsTo entries)))

/-- Leaves only live plans, and of their routes those to the leaf or to live plans. -/
def live (plans : Plans) : Plans :=
  retain (liveEntries plans) plans

end Conform.Traversal

namespace Conform

/-- A way from every value of a root to the instances of a leaf in it. -/
structure Traversal where
  root : NamedRef
  leaf : NamedRef
  plans : Traversal.Plans

end Conform

namespace Conform.Traversal

/-- The plan that starts at the root. -/
def start (traversal : Traversal) : Entry :=
  ⟨traversal.root, false⟩

/-- The way from a root to a leaf, for definitions of at most `names` names. -/
def between (definitions : Definitions) (names : Nat) (root leaf : NamedRef) :
    Except Fault Traversal :=
  if root = leaf then .ok ⟨root, leaf, [(⟨root, false⟩, [⟨[], .leaf⟩])]⟩
  else
    match buildPlans definitions leaf names (2 * names + 1) [(root, none)] [⟨root, false⟩] [] with
    | .error path => .error (.ambiguousTraversal root.name leaf.name path)
    | .ok plans =>
      let plans := live plans
      if (plans.lookup ⟨root, false⟩).isSome then .ok ⟨root, leaf, plans⟩
      else .error (.unreachableLeaf root.name leaf.name)

end Conform.Traversal
