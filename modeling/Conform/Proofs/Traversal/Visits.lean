import Conform.Proofs.Attempt.Checks
import Conform.Proofs.Traversal.Search
import Conform.Proofs.Value.Contents
import Conform.Traversal.Mapping

/-!
# The leaves that routes lead to

Steps lead from a value to parts of it. A leaf position of a value is one that a chain of
routes leads to in the value itself, past every name whose tag is found on the way, where
the leaf is recognised. The visits list these positions in the order of the routes, once for
each chain.

A mapping whose transform leaves every visited leaf as it is returns the value, and its calls
are the visits. It ends because between two steps at most two plans are entered.
-/

namespace Conform.Traversal

/-- Leaves as seen from further up. -/
def under (place : List Value.Position) (leaves : Leaves) : Leaves :=
  leaves.map (fun leaf => (place ++ leaf.1, leaf.2))

/-- The visits at the ends of steps. -/
def visitsSteps (finish : Value → Leaves) : List Step → Value → Leaves
  | [], value => finish value
  | .property name :: rest, .object _ fields _ =>
    if (Fields.lookup name fields).isUndefined then []
    else under [.key name] (visitsSteps finish rest (Fields.lookup name fields))
  | .others declared :: rest, .object _ fields _ =>
    fields.flatMap (fun entry =>
      if declared.contains entry.1 || entry.2.isUndefined then []
      else under [.key entry.1] (visitsSteps finish rest entry.2))
  | .items :: rest, .array _ items _ =>
    items.zipIdx.flatMap (fun entry => under [.index entry.2] (visitsSteps finish rest entry.1))
  | _ :: _, _ => []

/-- The visits at the end of a route. -/
def visitsGoal (recognised : Value → Bool) (inside : Entry → Value → Leaves) :
    Goal → Value → Leaves
  | .leaf, value => if recognised value then [([], value)] else []
  | .tagged ref, value => if value.hasTag (.named ref) then inside ⟨ref, false⟩ value else []
  | .shaped ref ambiguous, value => inside ⟨ref, ambiguous⟩ value

/-- The visits of routes one after the other. -/
def visitsRoutes (recognised : Value → Bool) (inside : Entry → Value → Leaves)
    (routes : List Route) (value : Value) : Leaves :=
  routes.flatMap (fun route =>
    visitsSteps (visitsGoal recognised inside route.goal) route.steps value)

/-- The visits of a plan, with at most so many plans inside each other. -/
def visitsPlan (recognised : Value → Bool) (plans : Plans) : Nat → Entry → Value → Leaves
  | 0, _, _ => []
  | fuel + 1, entry, value =>
    visitsRoutes recognised (visitsPlan recognised plans fuel) ((plans.lookup entry).getD []) value

/-- Steps lead from a value to a part. -/
inductive StepsTo : List Step → Value → List Value.Position → Value → Prop
  | done {value : Value} : StepsTo [] value [] value
  | property {name : String} {rest : List Step} {content : Identity} {fields : Fields Value}
      {tags : Tags} {place : List Value.Position} {part : Value}
      (there : (Fields.lookup name fields).isUndefined = false)
      (further : StepsTo rest (Fields.lookup name fields) place part) :
      StepsTo (.property name :: rest) (.object content fields tags) (.key name :: place) part
  | others {declared : List String} {rest : List Step} {content : Identity}
      {fields : Fields Value} {tags : Tags} {key : String} {child : Value}
      {place : List Value.Position} {part : Value} (member : (key, child) ∈ fields)
      (undeclared : key ∉ declared) (there : child.isUndefined = false)
      (further : StepsTo rest child place part) :
      StepsTo (.others declared :: rest) (.object content fields tags) (.key key :: place) part
  | items {rest : List Step} {content : Identity} {items : List Value} {tags : Tags}
      {index : Nat} {item : Value} {place : List Value.Position} {part : Value}
      (member : items[index]? = some item) (further : StepsTo rest item place part) :
      StepsTo (.items :: rest) (.array content items tags) (.index index :: place) part

/-- A chain of routes leads from a plan at a value to a leaf position: past names whose tags are
found to where the leaf is recognised. -/
inductive LeafAt (recognised : Value → Bool) (plans : Plans) :
    Entry → Value → List Value.Position → Value → Prop
  | here {entry : Entry} {routes : List Route} {route : Route} {value leaf : Value}
      {place : List Value.Position} (plan : plans.lookup entry = some routes)
      (member : route ∈ routes) (steps : StepsTo route.steps value place leaf)
      (goal : route.goal = .leaf) (known : recognised leaf = true) :
      LeafAt recognised plans entry value place leaf
  | onward {entry next : Entry} {routes : List Route} {route : Route} {value part leaf : Value}
      {place further : List Value.Position} (plan : plans.lookup entry = some routes)
      (member : route ∈ routes) (steps : StepsTo route.steps value place part)
      (continues : route.goal.entry? = some next)
      (tag : ∀ ref, route.goal = .tagged ref → part.hasTag (.named ref) = true)
      (rest : LeafAt recognised plans next part further leaf) :
      LeafAt recognised plans entry value (place ++ further) leaf

/-- What makes chains of routes descend: a name that recurs is met after a step, and no plan of
a name that is told by its tag stays where it starts. -/
structure Descending (plans : Plans) : Prop where
  shaped : ∀ entry routes, plans.lookup entry = some routes → ∀ route ∈ routes,
    ∀ ref ambiguous, route.goal = .shaped ref ambiguous → route.steps ≠ []
  tagged : ∀ entry routes, plans.lookup entry = some routes → ∀ route ∈ routes,
    ∀ ref, route.goal = .tagged ref → ∀ inner, plans.lookup ⟨ref, false⟩ = some inner →
      ∀ further ∈ inner, further.steps ≠ []

/-- So many plans inside each other suffice for a plan at a value. -/
def Enough (plans : Plans) (fuel : Nat) (entry : Entry) (value : Value) : Prop :=
  2 * value.depth + 2 ≤ fuel ∨
    (2 * value.depth + 1 ≤ fuel ∧
      ∀ routes, plans.lookup entry = some routes → ∀ route ∈ routes, route.steps ≠ [])

/-! ## Visits and chains of routes -/

/-- What is looked up is what is found under the key, or undefined. -/
theorem lookup_eq (key : String) (fields : Fields Value) :
    Fields.lookup key fields = (Fields.get? key fields).getD .undefined :=
  rfl

section

variable {place further : List Value.Position} {leaves : Leaves} {value part leaf : Value}

/-- The leaves as seen from further up are those below, each at its longer place. -/
@[simp] theorem mem_under_iff :
    (place, leaf) ∈ under further leaves ↔
      ∃ rest, (rest, leaf) ∈ leaves ∧ place = further ++ rest := by
  simp only [under, List.mem_map, Prod.mk.injEq]
  constructor
  · rintro ⟨⟨rest, leaf⟩, member, rfl, rfl⟩
    exact ⟨rest, member, rfl⟩
  · rintro ⟨rest, member, rfl⟩
    exact ⟨(rest, leaf), member, rfl, rfl⟩

/-- From where they are, leaves are seen as they are. -/
@[simp] theorem under_nil : under [] leaves = leaves := by
  simp [under]

/-- Leaves are seen from further up one after another. -/
theorem under_append (first second : Leaves) :
    under place (first ++ second) = under place first ++ under place second :=
  List.map_append

/-- Leaves are seen from further up in one or two stages. -/
theorem under_under : under place (under further leaves) = under (place ++ further) leaves := by
  simp [under, Function.comp_def]

/-- The visits at the ends of steps are those at the parts that the steps lead to. -/
theorem mem_visitsSteps_iff {finish : Value → Leaves} {steps : List Step} :
    (place, leaf) ∈ visitsSteps finish steps value ↔
      ∃ front back part, StepsTo steps value front part ∧ (back, leaf) ∈ finish part ∧
        place = front ++ back := by
  induction steps generalizing value place with
  | nil =>
    constructor
    · exact fun member => ⟨[], place, value, .done, member, rfl⟩
    · rintro ⟨front, back, part, steps, member, rfl⟩
      cases steps
      exact member
  | cons step rest ih =>
    constructor
    · intro member
      unfold visitsSteps at member
      split at member
      · next shape => cases shape
      · next name _ content fields tags shape =>
        obtain ⟨rfl, rfl⟩ := List.cons.inj shape
        split at member
        · cases member
        · next there =>
          obtain ⟨deep, inside, rfl⟩ := mem_under_iff.mp member
          obtain ⟨front, back, part, steps, ends, rfl⟩ := ih.mp inside
          exact ⟨_, back, part, .property (Bool.eq_false_iff.mpr there) steps, ends, rfl⟩
      · next declared _ content fields tags shape =>
        obtain ⟨rfl, rfl⟩ := List.cons.inj shape
        obtain ⟨⟨key, child⟩, listed, visited⟩ := List.mem_flatMap.mp member
        split at visited
        · cases visited
        · next open' =>
          rw [Bool.not_eq_true, Bool.or_eq_false_iff, List.contains_eq_mem,
            decide_eq_false_iff_not] at open'
          obtain ⟨deep, inside, rfl⟩ := mem_under_iff.mp visited
          obtain ⟨front, back, part, steps, ends, rfl⟩ := ih.mp inside
          exact ⟨_, back, part, .others listed open'.1 open'.2 steps, ends, rfl⟩
      · next _ content items tags shape =>
        obtain ⟨rfl, rfl⟩ := List.cons.inj shape
        obtain ⟨⟨item, index⟩, listed, visited⟩ := List.mem_flatMap.mp member
        obtain ⟨deep, inside, rfl⟩ := mem_under_iff.mp visited
        obtain ⟨front, back, part, steps, ends, rfl⟩ := ih.mp inside
        exact ⟨_, back, part, .items (List.mk_mem_zipIdx_iff_getElem?.mp listed) steps, ends, rfl⟩
      · cases member
    · rintro ⟨front, back, part, steps, member, rfl⟩
      cases steps with
      | property there further =>
        rw [visitsSteps, there]
        exact mem_under_iff.mpr ⟨_, ih.mpr ⟨_, back, part, further, member, rfl⟩, rfl⟩
      | @others _ _ _ _ _ key child _ _ listed undeclared there further =>
        rw [visitsSteps]
        refine List.mem_flatMap.mpr ⟨(key, child), listed, ?_⟩
        rw [if_neg (by simp [undeclared, there])]
        exact mem_under_iff.mpr ⟨_, ih.mpr ⟨_, back, part, further, member, rfl⟩, rfl⟩
      | @items _ _ _ _ index item _ _ listed further =>
        rw [visitsSteps]
        refine List.mem_flatMap.mpr ⟨(item, index), List.mk_mem_zipIdx_iff_getElem?.mpr listed, ?_⟩
        exact mem_under_iff.mpr ⟨_, ih.mpr ⟨_, back, part, further, member, rfl⟩, rfl⟩

/-- The visits at the end of a route: the leaf, or those of the next plan. -/
theorem mem_visitsGoal_iff {recognised : Value → Bool} {inside : Entry → Value → Leaves}
    {goal : Goal} :
    (place, leaf) ∈ visitsGoal recognised inside goal part ↔
      (goal = .leaf ∧ recognised part = true ∧ place = [] ∧ leaf = part) ∨
        ∃ next, goal.entry? = some next ∧
          (∀ ref, goal = .tagged ref → part.hasTag (.named ref) = true) ∧
          (place, leaf) ∈ inside next part := by
  cases goal with
  | leaf =>
    by_cases known : recognised part = true <;>
      simp [visitsGoal, Goal.entry?, known]
  | tagged ref =>
    by_cases tag : part.hasTag (.named ref) = true <;>
      simp [visitsGoal, Goal.entry?, tag]
  | shaped ref ambiguous => simp [visitsGoal, Goal.entry?]

/-- Steps lead inwards. -/
theorem StepsTo.depth_le {steps : List Step} (reached : StepsTo steps value place part) :
    part.depth ≤ value.depth ∧ (steps ≠ [] → part.depth < value.depth) := by
  induction reached with
  | done => exact ⟨Nat.le_refl _, fun stepped => absurd rfl stepped⟩
  | @property name rest content fields tags place part there further ih =>
    have inner : (Fields.lookup name fields).depth < (Value.object content fields tags).depth :=
      Value.depth_lt_of_mem_contents
        (List.mem_map_of_mem (f := Prod.snd) (Fields.mem_of_lookup there))
    exact ⟨by omega, fun _ => by omega⟩
  | @others declared rest content fields tags key child place part member undeclared there further
      ih =>
    have inner : child.depth < (Value.object content fields tags).depth :=
      Value.depth_lt_of_mem_contents (List.mem_map_of_mem (f := Prod.snd) member)
    exact ⟨by omega, fun _ => by omega⟩
  | @items rest content items tags index item place part member further ih =>
    have inner : item.depth < (Value.array content items tags).depth :=
      Value.depth_lt_of_mem_contents (List.mem_of_getElem? member)
    exact ⟨by omega, fun _ => by omega⟩

section

variable {recognised : Value → Bool} {plans : Plans} {fuel : Nat} {entry onward : Entry}
  {routes : List Route} {route : Route}

/-- What suffices for a plan leaves enough for the next one. -/
theorem Enough.next (enough : Enough plans (fuel + 1) entry value) (descending : Descending plans)
    (plan : plans.lookup entry = some routes) (member : route ∈ routes)
    (steps : StepsTo route.steps value place part) (continues : route.goal.entry? = some onward) :
    Enough plans fuel onward part := by
  obtain ⟨inner, deeper⟩ := steps.depth_le
  by_cases stays : route.steps = []
  · obtain enough | ⟨_, steps⟩ := enough
    · cases goal : route.goal with
      | leaf =>
        rw [goal] at continues
        cases continues
      | tagged ref =>
        rw [goal] at continues
        cases continues
        exact .inr ⟨by omega, descending.tagged entry routes plan route member ref goal⟩
      | shaped ref ambiguous =>
        exact absurd stays (descending.shaped entry routes plan route member ref ambiguous goal)
    · exact absurd stays (steps routes plan route member)
  · have less := deeper stays
    left
    obtain enough | ⟨enough, _⟩ := enough <;> omega

/-- Without any fuel no plan has enough. -/
theorem not_enough_zero : ¬ Enough plans 0 entry value := by
  rintro (enough | ⟨enough, _⟩) <;> omega

/-- With enough fuel, the visits of a plan are the leaf positions that chains of routes lead
to. -/
theorem mem_visitsPlan_iff (descending : Descending plans)
    (enough : Enough plans fuel entry value) :
    (place, leaf) ∈ visitsPlan recognised plans fuel entry value ↔
      LeafAt recognised plans entry value place leaf := by
  induction fuel generalizing entry value place with
  | zero => exact absurd enough not_enough_zero
  | succ fuel ih =>
    rw [visitsPlan, visitsRoutes, List.mem_flatMap]
    constructor
    · rintro ⟨route, member, visited⟩
      obtain ⟨routes, plan⟩ : ∃ routes, plans.lookup entry = some routes := by
        cases found : plans.lookup entry with
        | none =>
          rw [found] at member
          cases member
        | some routes => exact ⟨routes, rfl⟩
      rw [plan] at member
      obtain ⟨front, back, part, steps, ends, rfl⟩ := mem_visitsSteps_iff.mp visited
      obtain ⟨goal, known, rfl, rfl⟩ | ⟨next, continues, tag, inside⟩ := mem_visitsGoal_iff.mp ends
      · rw [List.append_nil]
        exact .here plan member steps goal known
      · have further := enough.next descending plan member steps continues
        exact .onward plan member steps continues tag ((ih further).mp inside)
    · intro leafAt
      cases leafAt with
      | @here _ _ route _ _ _ plan member steps goal known =>
        refine ⟨route, by rw [plan]; exact member, mem_visitsSteps_iff.mpr ?_⟩
        refine ⟨place, [], leaf, steps, mem_visitsGoal_iff.mpr (.inl ⟨goal, known, rfl, rfl⟩), ?_⟩
        rw [List.append_nil]
      | @onward _ next _ route _ part _ front back plan member steps continues tag rest =>
        have further := enough.next descending plan member steps continues
        refine ⟨route, by rw [plan]; exact member, mem_visitsSteps_iff.mpr ?_⟩
        refine ⟨front, back, part, steps, mem_visitsGoal_iff.mpr (.inr ?_), rfl⟩
        exact ⟨next, continues, tag, (ih further).mpr rest⟩

end

end

/-! ## Mappings that leave the leaves as they are -/

/-- The calls of a transform that leaves the visited leaves as they are. -/
def recorded (position : List Value.Position) (leaves : Leaves) : List Call :=
  leaves.map (fun leaf => ⟨position ++ leaf.1, leaf.2, leaf.2⟩)

section

variable {position place : List Value.Position} {calls : List Call} {value : Value}

/-- Without leaves no calls are recorded. -/
@[simp] theorem recorded_nil : recorded position [] = [] := rfl

/-- Calls are recorded leaf after leaf. -/
theorem recorded_append (first second : Leaves) :
    recorded position (first ++ second) = recorded position first ++ recorded position second :=
  List.map_append

/-- Leaves as seen from further up are recorded at the longer position. -/
theorem recorded_under (leaves : Leaves) :
    recorded position (under place leaves) = recorded (position ++ place) leaves := by
  simp [recorded, under, Function.comp_def]

/-- A value shares its content with itself. -/
theorem same_self (value : Value) : value.same value = true := by
  cases value <;> simp [Value.same, Value.eq, Number.numericEq, Binary64.numericEq]

/-- Mapping items that stay leaves them as they are. -/
theorem mapItems_still {visits : Nat → Value → Leaves}
    (next : Nat → Value → List Call → Except Stop Progress) (index : Nat) (items : List Value)
    (calls : List Call)
    (stays : ∀ index' item, items[index']? = some item → ∀ calls,
      next (index + index') item calls =
        .ok (item, calls ++ recorded position (visits (index + index') item))) :
    mapItems next index items calls =
      .ok (false, items, calls ++ recorded position
        ((items.zipIdx index).flatMap (fun entry => visits entry.2 entry.1))) := by
  induction items generalizing index calls with
  | nil => simp [mapItems]
  | cons item rest ih =>
    have first := stays 0 item rfl calls
    rw [Nat.add_zero] at first
    have later := ih (index + 1) (calls ++ recorded position (visits index item))
      (fun index' item found calls => by
        have next := stays (index' + 1) item found calls
        rwa [Nat.add_comm index' 1, ← Nat.add_assoc] at next)
    simp only [mapItems, first, later, same_self, ↓reduceIte, List.zipIdx_cons, List.flatMap_cons,
      recorded_append, List.append_assoc]

/-- Mapping fields that stay leaves them as they are. -/
theorem mapFields_still {visits : String → Value → Leaves}
    (next : Nat → String → Value → List Call → Except Stop Progress) (declared : List String)
    (index : Nat) (fields : Fields Value) (calls : List Call)
    (stays : ∀ key child, (key, child) ∈ fields → key ∉ declared → child.isUndefined = false →
      ∀ index calls, next index key child calls =
        .ok (child, calls ++ recorded position (visits key child))) :
    mapFields next declared index fields calls =
      .ok (false, fields, calls ++ recorded position (fields.flatMap (fun entry =>
        if declared.contains entry.1 || entry.2.isUndefined then []
        else visits entry.1 entry.2))) := by
  induction fields generalizing index calls with
  | nil => simp [mapFields]
  | cons entry rest ih =>
    obtain ⟨key, child⟩ := entry
    have later := fun calls => ih (index + 1) calls
      (fun key child member => stays key child (List.mem_cons_of_mem _ member))
    rw [List.flatMap_cons]
    by_cases skipped : (declared.contains key || child.isUndefined) = true
    · simp only [mapFields, skipped, ↓reduceIte, later, List.nil_append]
    · have visited := skipped
      rw [Bool.not_eq_true, Bool.or_eq_false_iff, List.contains_eq_mem,
        decide_eq_false_iff_not] at visited
      have first := stays key child List.mem_cons_self visited.1 visited.2 index calls
      simp only [mapFields, skipped, Bool.false_eq_true, ↓reduceIte, first, later, same_self,
        recorded_append, List.append_assoc]

/-- Taking steps to where the value stays leaves it as it is. -/
theorem mapSteps_still
    {finish : Identity → List Value.Position → Value → List Call → Except Stop Progress}
    {visits : Value → Leaves} {steps : List Step}
    (stays : ∀ place part, StepsTo steps value place part → ∀ origin calls,
      finish origin (position ++ place) part calls =
        .ok (part, calls ++ recorded (position ++ place) (visits part)))
    (origin : Identity) (calls : List Call) :
    mapSteps finish steps origin position value calls =
      .ok (value, calls ++ recorded position (visitsSteps visits steps value)) := by
  induction steps generalizing value position origin calls with
  | nil =>
    have here := stays [] value .done origin calls
    rwa [List.append_nil] at here
  | cons step rest ih =>
    -- what the steps that follow lead to from a child
    have child : ∀ step' child, (∀ place part, StepsTo rest child place part →
        StepsTo (step :: rest) value (step' :: place) part) → ∀ origin calls,
        mapSteps finish rest origin (position ++ [step']) child calls =
          .ok (child, calls ++
            recorded position (under [step'] (visitsSteps visits rest child))) := by
      intro step' child inside origin calls
      rw [recorded_under]
      refine ih (fun place part reached origin calls => ?_) origin calls
      have there := stays (step' :: place) part (inside place part reached) origin calls
      rwa [List.append_cons] at there
    cases step with
    | property name =>
      cases value with
      | object content fields tags =>
        simp only [mapSteps, visitsSteps, ← lookup_eq]
        by_cases missing : (Fields.lookup name fields).isUndefined = true
        · simp [missing]
        · have inside := child (.key name) (Fields.lookup name fields)
            (fun place part => .property (Bool.eq_false_iff.mpr missing)) (origin.part 0) calls
          simp [missing, inside, same_self]
      | _ => simp [mapSteps, visitsSteps]
    | others declared =>
      cases value with
      | object content fields tags =>
        have inside := mapFields_still
          (fun index key child calls =>
            mapSteps finish rest (origin.part index) (position ++ [.key key]) child calls)
          declared 0 fields calls
          (fun key' child' member undeclared there index calls =>
            child (.key key') child' (fun place part => .others member undeclared there)
              (origin.part index) calls)
        simp only [mapSteps, visitsSteps, inside]
      | _ => simp [mapSteps, visitsSteps]
    | items =>
      cases value with
      | array content items tags =>
        have inside := mapItems_still
          (fun index child calls =>
            mapSteps finish rest (origin.part index) (position ++ [.index index]) child calls)
          0 items calls
          (fun index item member calls => by
            rw [Nat.zero_add]
            exact child (.index index) item (fun place part => .items member)
              (origin.part index) calls)
        simp only [mapSteps, visitsSteps, inside]
      | _ => simp [mapSteps, visitsSteps]

end

section

variable {terms : Terms} {leaf : NamedRef} {recognised : Value → Bool} {plans : Plans}
  {transform : Transform}

/-- What the leaf and the names told by their tags are recognised by: the check of the leaf
answers alike everywhere, and only objects are told by their tags. -/
structure Recognises (terms : Terms) (leaf : NamedRef) (plans : Plans)
    (recognised : Value → Bool) : Prop where
  leaf : ∀ origin value, ∃ answer,
    leaf.isA terms.definitions terms.surroundings terms.limit origin value = .ok answer ∧
      answer.getD true = recognised value
  objects : ∀ entry routes, plans.lookup entry = some routes → ∀ route ∈ routes, ∀ ref,
    route.goal = .tagged ref → ref.isObject terms.definitions = true

/-- A name that is directly an object is told by its tag. -/
theorem isA_of_isObject {ref : NamedRef} (object : ref.isObject terms.definitions = true)
    (origin : Identity) (value : Value) :
    ref.isA terms.definitions terms.surroundings terms.limit origin value =
      .ok (some (value.hasTag (.named ref))) := by
  obtain ⟨node, properties, additional, found⟩ := NamedRef.isObject_iff.mp object
  rw [NamedRef.isA, found]
  rfl

/-- The transform leaves the leaves that are visited from a position as they are. -/
def Spares (transform : Transform) (position : List Value.Position) (leaves : Leaves) : Prop :=
  ∀ leaf ∈ leaves, ∀ calls, transform calls (position ++ leaf.1) leaf.2 = leaf.2

/-- What spares leaves as seen from further up spares them at the longer position. -/
theorem Spares.under {position place : List Value.Position} {leaves : Leaves}
    (spares : Spares transform position (under place leaves)) :
    Spares transform (position ++ place) leaves := by
  intro leaf member calls
  have kept := spares (place ++ leaf.1, leaf.2) (mem_under_iff.mpr ⟨leaf.1, member, rfl⟩) calls
  rwa [← List.append_assoc] at kept

/-- The end of a route leaves a value as it is when the plan that it leads to does. -/
theorem mapGoal_still {inside : Entry → Value → Leaves} {goal : Goal}
    {enter : Entry → Identity → List Value.Position → Value → List Call → Except Stop Progress}
    {position : List Value.Position} {value : Value}
    (recognises : ∀ origin value, ∃ answer,
      leaf.isA terms.definitions terms.surroundings terms.limit origin value = .ok answer ∧
        answer.getD true = recognised value)
    (object : ∀ ref, goal = .tagged ref → ref.isObject terms.definitions = true)
    (spares : Spares transform position (visitsGoal recognised inside goal value))
    (stays : ∀ next, goal.entry? = some next →
      Spares transform position (inside next value) → ∀ origin calls,
      enter next origin position value calls =
        .ok (value, calls ++ recorded position (inside next value)))
    (origin : Identity) (calls : List Call) :
    mapGoal terms leaf transform enter goal origin position value calls =
      .ok (value, calls ++ recorded position (visitsGoal recognised inside goal value)) := by
  cases goal with
  | leaf =>
    obtain ⟨answer, checked, known⟩ := recognises origin value
    rw [mapGoal, checked, visitsGoal]
    simp only [known]
    by_cases leaf : recognised value = true
    · have kept := spares ([], value) (by simp [visitsGoal, leaf]) calls
      simp only [List.append_nil] at kept
      simp [leaf, recorded, kept]
    · simp [leaf]
  | tagged ref =>
    rw [mapGoal, isA_of_isObject (object ref rfl), visitsGoal]
    rw [visitsGoal] at spares
    cases tag : value.hasTag (.named ref) with
    | true =>
      rw [tag] at spares
      exact stays ⟨ref, false⟩ rfl spares origin calls
    | false => simp
  | shaped ref ambiguous => exact stays ⟨ref, ambiguous⟩ rfl spares origin calls

/-- Routes that leave the value as it is, one after the other, leave it as it is together. -/
theorem mapRoutes_still {inside : Entry → Value → Leaves} {routes : List Route}
    {finish : Goal → Identity → List Value.Position → Value → List Call → Except Stop Progress}
    {position : List Value.Position} {value : Value}
    (stays : ∀ route ∈ routes, ∀ origin calls,
      mapSteps (finish route.goal) route.steps origin position value calls =
        .ok (value, calls ++ recorded position
          (visitsSteps (visitsGoal recognised inside route.goal) route.steps value)))
    (index : Nat) (origin : Identity) (calls : List Call) :
    mapRoutes finish index routes origin position value calls =
      .ok (value, calls ++ recorded position (visitsRoutes recognised inside routes value)) := by
  induction routes generalizing index calls with
  | nil => simp [mapRoutes, visitsRoutes]
  | cons route rest ih =>
    have first := stays route List.mem_cons_self (origin.part index) calls
    have later := ih (fun other member => stays other (List.mem_cons_of_mem _ member)) (index + 1)
      (calls ++ recorded position
        (visitsSteps (visitsGoal recognised inside route.goal) route.steps value))
    rw [mapRoutes, first]
    simp only [later, visitsRoutes, List.flatMap_cons, recorded_append, List.append_assoc]

/-- With enough fuel, a transform that leaves the visited leaves as they are leaves the value as
it is, and its calls are the visits. -/
theorem mapPlan_still (recognises : Recognises terms leaf plans recognised)
    (descending : Descending plans) {fuel : Nat} {entry : Entry} {value : Value}
    (enough : Enough plans fuel entry value) {position : List Value.Position}
    (spares : Spares transform position (visitsPlan recognised plans fuel entry value))
    (origin : Identity) (calls : List Call) :
    mapPlan terms leaf plans transform fuel entry origin position value calls =
      .ok (value, calls ++ recorded position (visitsPlan recognised plans fuel entry value)) := by
  induction fuel generalizing entry value position origin calls with
  | zero => exact absurd enough not_enough_zero
  | succ fuel ih =>
    rw [mapPlan, visitsPlan]
    rw [visitsPlan] at spares
    cases plan : plans.lookup entry with
    | none => simp [visitsRoutes]
    | some routes =>
      rw [plan, Option.getD_some] at spares
      refine mapRoutes_still (fun route member origin calls => ?_) 0 origin calls
      have kept : Spares transform position
          (visitsSteps (visitsGoal recognised (visitsPlan recognised plans fuel) route.goal)
            route.steps value) :=
        fun leaf visited => spares leaf (List.mem_flatMap.mpr ⟨route, member, visited⟩)
      refine mapSteps_still (fun place part reached origin calls => ?_) origin calls
      have below : Spares transform (position ++ place)
          (visitsGoal recognised (visitsPlan recognised plans fuel) route.goal part) := by
        refine Spares.under (fun leaf visited => kept leaf ?_)
        obtain ⟨rest, inside, same⟩ := mem_under_iff.mp visited
        exact mem_visitsSteps_iff.mpr ⟨place, rest, part, reached, inside, same⟩
      refine mapGoal_still recognises.leaf (recognises.objects entry routes plan route member) below
        (fun next continues spares origin calls => ?_) origin calls
      exact ih (enough.next descending plan member reached continues) spares origin calls

/-- A value that belongs to the root is mapped by the plan that starts there. -/
theorem map_of_mapPlan {traversal : Traversal} {fuel : Nat} {origin : Identity} {value : Value}
    {belongs : Option Bool} {progress : Progress}
    (checked : traversal.root.isA terms.definitions terms.surroundings terms.limit origin value =
      .ok belongs)
    (passes : belongs ≠ some false)
    (mapped : mapPlan terms traversal.leaf traversal.plans transform fuel traversal.start origin []
      value [] = .ok progress) :
    traversal.map terms transform fuel origin value = .ok (.ok progress) := by
  rw [Traversal.map, checked]
  match belongs, passes with
  | none, _ => simp only [mapped]
  | some true, _ => simp only [mapped]

end

end Conform.Traversal
