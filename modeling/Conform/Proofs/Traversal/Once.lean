import Conform.Proofs.Attempt.Membership
import Conform.Proofs.Traversal.Compiled
import Conform.Proofs.Traversal.Patching

/-!
# Each leaf once

A mapping calls its transform once at each leaf position of the input, with what the input
holds there, when the leaf positions lie apart from each other and when no answer leads on to
leaves where the leaf that it replaced did not. A route may still come to an answer: whatever
is left of it led to no leaf in the input, so it leads to none in the answer. Then what comes
out depends on the transform only at these positions, so running the transforms first and
putting the results in place together comes to the same.

Leaf positions need not be apart. Where two names in one intersection mention the leaf at the
same property, two chains of routes lead to one position: the transform is called a second
time, on its own answer, while the tasks of the other way are run once for each position.
-/

namespace Conform.Traversal

/-- A route leads from a value to some leaf position. -/
def Route.Hits (recognised : Value → Bool) (plans : Plans) (route : Route) (value : Value) :
    Prop :=
  ∃ place part, StepsTo route.steps value place part ∧
    (route.goal = .leaf ∧ recognised part = true ∨
      ∃ next, route.goal.entry? = some next ∧
        (∀ ref, route.goal = .tagged ref → part.hasTag (.named ref) = true) ∧
        ∃ further leaf, LeafAt recognised plans next part further leaf)

/-- An answer leads on to leaves, along what is left of a route, only where the leaf that it
replaces did. -/
def Calm (recognised : Value → Bool) (plans : Plans) (leaf answer : Value) : Prop :=
  ∀ entry routes, plans.lookup entry = some routes → ∀ route ∈ routes,
    ∀ rest, rest <:+ route.steps →
      Route.Hits recognised plans ⟨rest, route.goal⟩ answer →
      Route.Hits recognised plans ⟨rest, route.goal⟩ leaf

/-! ## Routes and plans -/

/-- Of containers only the tags tell whether they are recognised. -/
structure ByTags (recognised : Value → Bool) : Prop where
  array : ∀ content content' items items' tags,
    recognised (.array content items tags) = recognised (.array content' items' tags)
  object : ∀ content content' fields fields' tags,
    recognised (.object content fields tags) = recognised (.object content' fields' tags)

section

variable {terms : Terms} {leaf : NamedRef} {recognised : Value → Bool} {plans : Plans}
  {transform : Transform} {touched : List (List Value.Position)}
  {position : List Value.Position} {value patched : Value} {fuel : Nat} {goal : Goal}
  {steps : List Step}

/-- With enough plans inside each other, a route has no visits when it leads to no leaf. -/
theorem visitsSteps_eq_nil_iff (descending : Descending plans)
    (enough : ∀ place part, StepsTo steps value place part → ∀ next, goal.entry? = some next →
      Enough plans fuel next part) :
    visitsSteps (visitsGoal recognised (visitsPlan recognised plans fuel) goal) steps value = [] ↔
      ¬ Route.Hits recognised plans ⟨steps, goal⟩ value := by
  rw [List.eq_nil_iff_forall_not_mem, ← not_iff_not, not_not]
  push Not
  constructor
  · rintro ⟨⟨place, found⟩, visited⟩
    obtain ⟨front, back, part, reached, ends, rfl⟩ := mem_visitsSteps_iff.mp visited
    refine ⟨front, part, reached, ?_⟩
    obtain ⟨here, known, _, _⟩ | ⟨next, continues, tag, inside⟩ := mem_visitsGoal_iff.mp ends
    · exact .inl ⟨here, known⟩
    · have sufficient := enough front part reached next continues
      exact .inr ⟨next, continues, tag, back, found,
        (mem_visitsPlan_iff descending sufficient).mp inside⟩
  · rintro ⟨front, part, reached, ⟨here, known⟩ | ⟨next, continues, tag, back, found, leafAt⟩⟩
    · exact ⟨(front ++ [], part), mem_visitsSteps_iff.mpr ⟨front, [], part, reached,
        mem_visitsGoal_iff.mpr (.inl ⟨here, known, rfl, rfl⟩), rfl⟩⟩
    · have sufficient := enough front part reached next continues
      exact ⟨(front ++ back, found), mem_visitsSteps_iff.mpr ⟨front, back, part, reached,
        mem_visitsGoal_iff.mpr (.inr ⟨next, continues, tag,
          (mem_visitsPlan_iff descending sufficient).mpr leafAt⟩), rfl⟩⟩

/-- A route that leads to no leaf leaves the value as it is, without a call. -/
theorem mapSteps_of_not_hits (recognises : Recognises terms leaf plans recognised)
    (descending : Descending plans)
    (object : ∀ ref, goal = .tagged ref → ref.isObject terms.definitions = true)
    (missed : ¬ Route.Hits recognised plans ⟨steps, goal⟩ value) (origin : Identity)
    (calls : List Call) :
    EndsIn transform []
      (fun fuel other => mapSteps (mapGoal terms leaf other (mapPlan terms leaf plans other fuel)
        goal) steps origin position value calls) (value, calls) := by
  refine ⟨2 * value.depth + 2, fun fuel enough other _ => ?_⟩
  have sufficient : ∀ place part, StepsTo steps value place part → ∀ next,
      goal.entry? = some next → Enough plans fuel next part := fun place part reached next _ =>
    .inl (by have := reached.depth_le.1; omega)
  have empty := (visitsSteps_eq_nil_iff descending sufficient).mpr missed
  have still : mapSteps (mapGoal terms leaf other (mapPlan terms leaf plans other fuel) goal) steps
      origin position value calls = .ok (value, calls ++ recorded position (visitsSteps
        (visitsGoal recognised (visitsPlan recognised plans fuel) goal) steps value)) := by
    refine mapSteps_still (fun place part reached origin calls => ?_) origin calls
    have spares : Spares other (position ++ place)
        (visitsGoal recognised (visitsPlan recognised plans fuel) goal part) := by
      intro leaf visited
      have listed := mem_visitsSteps_iff.mpr ⟨place, leaf.1, part, reached, visited, rfl⟩
      rw [empty] at listed
      cases listed
    exact mapGoal_still recognises.leaf object spares (fun next continues spares origin calls =>
      mapPlan_still recognises descending (sufficient place part reached next continues) spares
        origin calls) origin calls
  rwa [empty, recorded_nil, List.append_nil] at still

/-- Steps lead to what a part's place is read as. -/
theorem StepsTo.at?_append {place : List Value.Position} {part : Value}
    (reached : StepsTo steps value place part) (keyed : value.Throughout Value.Keyed)
    (further : List Value.Position) : value.at? (place ++ further) = part.at? further := by
  induction reached with
  | done => rfl
  | property there inner ih =>
    have member := Fields.mem_of_lookup there
    have held := Fields.get?_of_mem keyed.here member
    rw [List.cons_append, Value.at?, Value.child?, held]
    exact ih (keyed.field member)
  | others member undeclared there inner ih =>
    have held := Fields.get?_of_mem keyed.here member
    rw [List.cons_append, Value.at?, Value.child?, held]
    exact ih (keyed.field member)
  | items held inner ih =>
    rw [List.cons_append, Value.at?, Value.child?, held]
    exact ih (keyed.item (List.mem_of_getElem? held))

/-- What holds throughout a value holds throughout whatever steps lead to. -/
theorem StepsTo.throughout {place : List Value.Position} {part : Value} {holds : Value → Prop}
    (reached : StepsTo steps value place part) (everywhere : value.Throughout holds) :
    part.Throughout holds := by
  induction reached with
  | done => exact everywhere
  | property there inner ih => exact ih (everywhere.field (Fields.mem_of_lookup there))
  | others member undeclared there inner ih => exact ih (everywhere.field member)
  | items held inner ih => exact ih (everywhere.item (List.mem_of_getElem? held))

/-- No step leads into a scalar. -/
theorem StepsTo.eq_of_scalar {place : List Value.Position} {part : Value}
    (reached : StepsTo steps value place part) (scalar : value.tags? = none) : part = value := by
  cases reached with
  | done => rfl
  | _ => cases scalar

/-- What stands where an answer does not is recognised as it was, and carries the same tags. -/
theorem Patched.alike {calm : Value → Value → Prop} (byTags : ByTags recognised)
    (whole : Patched calm touched position value patched)
    (apart : ¬ (position ∈ touched ∧ calm value patched)) :
    recognised patched = recognised value ∧
      ∀ schema, patched.hasTag schema = value.hasTag schema := by
  cases whole with
  | same => exact ⟨rfl, fun _ => rfl⟩
  | answer member quiet => exact absurd ⟨member, quiet⟩ apart
  | array below length parts => exact ⟨byTags.array _ _ _ _ _, fun _ => rfl⟩
  | object below keys parts absent => exact ⟨byTags.object _ _ _ _ _, fun _ => rfl⟩

/-- A plan is followed past earlier answers from a part of the input. -/
def PlanPasses (terms : Terms) (leaf : NamedRef) (recognised : Value → Bool) (plans : Plans)
    (transform : Transform) (fuel : Nat) (entry : Entry) (position : List Value.Position)
    (value : Value) : Prop :=
  ∀ origin, Passes (Calm recognised plans) transform position
    (visitsPlan recognised plans fuel entry value) value
    (fun patched calls fuel other =>
      mapPlan terms leaf plans other fuel entry origin position patched calls)

/-- What is left of a route is followed past earlier answers from a part of the input. -/
def RoutePasses (terms : Terms) (leaf : NamedRef) (recognised : Value → Bool) (plans : Plans)
    (transform : Transform) (fuel : Nat) (goal : Goal) (steps : List Step)
    (position : List Value.Position) (value : Value) : Prop :=
  ∀ origin, Passes (Calm recognised plans) transform position
    (visitsSteps (visitsGoal recognised (visitsPlan recognised plans fuel) goal) steps value) value
    (fun patched calls fuel other =>
      mapSteps (mapGoal terms leaf other (mapPlan terms leaf plans other fuel) goal) steps origin
        position patched calls)

/-- The end of a route is passed where no answer stands. -/
theorem mapGoal_revises (recognises : Recognises terms leaf plans recognised)
    (byTags : ByTags recognised)
    (object : ∀ ref, goal = .tagged ref → ref.isObject terms.definitions = true)
    (passes : ∀ next, goal.entry? = some next →
      PlanPasses terms leaf recognised plans transform fuel next position value)
    (whole : Patched (Calm recognised plans) touched position value patched)
    (apart : ¬ (position ∈ touched ∧ Calm recognised plans value patched))
    (free : Free (Calm recognised plans) transform touched
      (under position (visitsGoal recognised (visitsPlan recognised plans fuel) goal value)))
    (origin : Identity) (calls : List Call) :
    Revises (Calm recognised plans) transform touched position
      (under position (visitsGoal recognised (visitsPlan recognised plans fuel) goal value))
      value patched calls
      (fun fuel other => mapGoal terms leaf other (mapPlan terms leaf plans other fuel) goal origin
        position patched calls) := by
  obtain ⟨alike, sameTags⟩ := whole.alike byTags apart
  cases goal with
  | leaf =>
    obtain ⟨told, checked, known⟩ := recognises.leaf origin patched
    by_cases leaf : recognised value = true
    · have here : under position (visitsGoal recognised (visitsPlan recognised plans fuel) .leaf
          value) = [(position, value)] := by
        simp [visitsGoal, leaf, under]
      rw [here] at free ⊢
      obtain rfl := free.eq_of_here whole
      have quiet := free.quiet _ (List.mem_singleton.mpr rfl) calls
      refine ⟨transform calls position patched,
        [⟨position, patched, transform calls position patched⟩],
        ⟨0, fun fuel _ other agrees => ?_⟩, rfl, by simp, .answer (by simp) quiet⟩
      have agrees := agrees _ (List.mem_singleton.mpr rfl) calls
      simp only [mapGoal, checked, known, leaf, ↓reduceIte, agrees]
    · have empty : under position (visitsGoal recognised (visitsPlan recognised plans fuel) .leaf
          value) = [] := by
        simp [visitsGoal, leaf, under]
      rw [empty]
      refine revises_of_still whole (endsIn_of_eq (fun fuel other => ?_))
      simp only [mapGoal, checked, known, alike, leaf]
      rfl
  | tagged ref =>
    have run : ∀ fuel other, mapGoal terms leaf other (mapPlan terms leaf plans other fuel)
        (.tagged ref) origin position patched calls =
          if value.hasTag (.named ref) then
            mapPlan terms leaf plans other fuel ⟨ref, false⟩ origin position patched calls
          else .ok (patched, calls) := by
      intro fuel other
      rw [mapGoal, isA_of_isObject (object ref rfl), sameTags]
      cases value.hasTag (.named ref) <;> rfl
    simp only [run]
    rw [visitsGoal] at free ⊢
    split
    · next tag =>
      rw [if_pos tag] at free
      exact passes ⟨ref, false⟩ rfl origin touched patched calls whole free
    · exact revises_of_still whole (endsIn_of_eq (fun fuel other => rfl))
  | shaped ref ambiguous =>
    exact passes ⟨ref, ambiguous⟩ rfl origin touched patched calls whole free

/-- From an answer the rest of a route leads to no leaf, since it led to none from the leaf that
stood there. -/
theorem mapSteps_revises_answer (recognises : Recognises terms leaf plans recognised)
    (descending : Descending plans) {entry : Entry} {routes : List Route} {route : Route}
    (plan : plans.lookup entry = some routes) (member : route ∈ routes)
    (left : steps <:+ route.steps)
    (enough : ∀ place part, StepsTo steps value place part → ∀ next,
      route.goal.entry? = some next → Enough plans fuel next part)
    (touches : position ∈ touched) (quiet : Calm recognised plans value patched)
    (free : Free (Calm recognised plans) transform touched (under position
      (visitsSteps (visitsGoal recognised (visitsPlan recognised plans fuel) route.goal) steps
        value)))
    (origin : Identity) (calls : List Call) :
    Revises (Calm recognised plans) transform touched position
      (under position
        (visitsSteps (visitsGoal recognised (visitsPlan recognised plans fuel) route.goal) steps
          value))
      value patched calls
      (fun fuel other => mapSteps (mapGoal terms leaf other (mapPlan terms leaf plans other fuel)
        route.goal) steps origin position patched calls) := by
  have empty := free.eq_nil_of_touched touches
  have missed := (visitsSteps_eq_nil_iff descending enough).mp empty
  rw [empty]
  exact revises_of_still (.answer touches quiet) (mapSteps_of_not_hits recognises descending
    (recognises.objects entry routes plan route member)
    (fun hits => missed (quiet entry routes plan route member steps left hits)) origin calls)

/-- What is left of a route is followed past earlier answers. -/
theorem mapSteps_passes (recognises : Recognises terms leaf plans recognised)
    (byTags : ByTags recognised) (descending : Descending plans) {entry : Entry}
    {routes : List Route} {route : Route} (plan : plans.lookup entry = some routes)
    (member : route ∈ routes) (left : steps <:+ route.steps)
    (keyed : value.Throughout Value.Keyed)
    (enough : ∀ place part, StepsTo steps value place part → ∀ next,
      route.goal.entry? = some next → Enough plans fuel next part)
    (passes : ∀ place part, StepsTo steps value place part → ∀ next,
      route.goal.entry? = some next →
      PlanPasses terms leaf recognised plans transform fuel next (position ++ place) part) :
    RoutePasses terms leaf recognised plans transform fuel route.goal steps position value := by
  intro origin touched patched calls whole free
  induction steps generalizing value patched position touched origin calls with
  | nil =>
    by_cases answered : position ∈ touched ∧ Calm recognised plans value patched
    · exact mapSteps_revises_answer recognises descending plan member left enough answered.1
        answered.2 free origin calls
    · have passes' : ∀ next, route.goal.entry? = some next →
          PlanPasses terms leaf recognised plans transform fuel next position value := by
        intro next continues
        simpa using passes [] value .done next continues
      exact mapGoal_revises recognises byTags
        (recognises.objects entry routes plan route member) passes' whole answered free origin calls
  | cons step rest ih =>
    have left' := (List.suffix_cons step rest).trans left
    -- the steps that follow, from a part one step down
    have child : ∀ step' part, (∀ place inner, StepsTo rest part place inner →
        StepsTo (step :: rest) value (step' :: place) inner) → part.Throughout Value.Keyed →
        RoutePasses terms leaf recognised plans transform fuel route.goal rest
          (position ++ [step']) part := by
      intro step' part inside keyed origin touched patched calls whole free
      refine ih left' keyed (fun place inner reached => enough _ inner (inside place inner reached))
        (fun place inner reached next continues => ?_) origin touched patched calls whole free
      have passed := passes _ inner (inside place inner reached) next continues
      rwa [List.append_cons] at passed
    have missed : (∀ fuel other, mapSteps (mapGoal terms leaf other
          (mapPlan terms leaf plans other fuel) route.goal) (step :: rest) origin position patched
          calls = .ok (patched, calls)) →
        visitsSteps (visitsGoal recognised (visitsPlan recognised plans fuel) route.goal)
          (step :: rest) value = [] →
        Revises (Calm recognised plans) transform touched position
          (under position (visitsSteps (visitsGoal recognised (visitsPlan recognised plans fuel)
            route.goal) (step :: rest) value)) value patched calls
          (fun fuel other => mapSteps (mapGoal terms leaf other
            (mapPlan terms leaf plans other fuel) route.goal) (step :: rest) origin position
            patched calls) := by
      intro still empty
      rw [empty]
      exact revises_of_still whole (endsIn_of_eq still)
    by_cases answered : position ∈ touched ∧ Calm recognised plans value patched
    · exact mapSteps_revises_answer recognises descending plan member left enough answered.1
        answered.2 free origin calls
    cases value with
    | object content fields tags =>
      obtain ⟨content', fields', rfl, all⟩ := whole.object_inv.resolve_left answered
      cases step with
      | property name =>
        refine mapSteps_property_revises whole all free (fun there => ?_)
        exact child (.key name) _ (fun place inner => .property there)
          (keyed.field (Fields.mem_of_lookup there)) (origin.part 0)
      | others declared =>
        refine mapSteps_others_revises keyed.here whole all free
          (fun key part listed undeclared there => ?_)
        exact child (.key key) part (fun place inner => .others listed undeclared there)
          (keyed.field listed)
      | items => exact missed (fun _ _ => rfl) rfl
    | array content items tags =>
      obtain ⟨content', items', rfl, length, parts⟩ := whole.array_inv.resolve_left answered
      cases step with
      | items =>
        refine mapSteps_items_revises length whole parts free (fun index part held => ?_)
        exact child (.index index) part (fun place inner => .items held)
          (keyed.item (List.mem_of_getElem? held))
      | property name => exact missed (fun _ _ => rfl) rfl
      | others declared => exact missed (fun _ _ => rfl) rfl
    | _ =>
      cases whole with
      | same => cases step <;> exact missed (fun _ _ => rfl) rfl
      | answer touches quiet => exact absurd ⟨touches, quiet⟩ answered

/-- Routes are followed one after the other, each past the answers of those before it. -/
theorem mapRoutes_passes {routes : List Route}
    (each : ∀ route ∈ routes,
      RoutePasses terms leaf recognised plans transform fuel route.goal route.steps position value)
    (index : Nat) (origin : Identity) :
    Passes (Calm recognised plans) transform position
      (visitsRoutes recognised (visitsPlan recognised plans fuel) routes value) value
      (fun patched calls fuel other => mapRoutes (mapGoal terms leaf other
        (mapPlan terms leaf plans other fuel)) index routes origin position patched calls) := by
  intro touched patched calls whole free
  induction routes generalizing index touched patched calls with
  | nil => exact revises_of_still whole (endsIn_of_eq (fun _ _ => rfl))
  | cons route rest ih =>
    rw [visitsRoutes, List.flatMap_cons, under_append] at free ⊢
    obtain ⟨middle, made, ending, called, kept, whole'⟩ :=
      each route List.mem_cons_self (origin.part index) touched patched calls whole free.left
    obtain ⟨result, made', ending', called', kept', whole''⟩ :=
      ih (fun other member => each other (List.mem_cons_of_mem _ member)) (index + 1) _ middle
        (calls ++ made) whole' free.right
    refine ⟨result, made ++ made', ending.both ending' (fun fuel other first second => ?_), ?_,
      fun empty => ?_, ?_⟩
    · simp only [mapRoutes, first, second, List.append_assoc]
    · rw [List.map_append, called, called']
      rfl
    · obtain ⟨empty, empty'⟩ := List.append_eq_nil_iff.mp empty
      rw [kept' empty', kept empty]
    · rwa [List.append_assoc, ← List.map_append] at whole''

/-- A plan is followed past earlier answers. -/
theorem mapPlan_passes (recognises : Recognises terms leaf plans recognised)
    (byTags : ByTags recognised) (descending : Descending plans) {entry : Entry}
    (keyed : value.Throughout Value.Keyed) (enough : Enough plans fuel entry value) :
    PlanPasses terms leaf recognised plans transform fuel entry position value := by
  induction fuel generalizing entry position value with
  | zero => exact absurd enough not_enough_zero
  | succ fuel ih =>
    intro origin touched patched calls whole free
    rw [visitsPlan] at free ⊢
    cases plan : plans.lookup entry with
    | none =>
      refine revises_of_still whole (.of_succ (endsIn_of_eq (fun fuel other => ?_)))
      simp only [mapPlan, plan]
    | some routes =>
      rw [plan, Option.getD_some] at free
      have each : ∀ route ∈ routes, RoutePasses terms leaf recognised plans transform fuel
          route.goal route.steps position value := by
        intro route member
        refine mapSteps_passes recognises byTags descending plan member List.suffix_rfl keyed
          (fun place part reached next continues =>
            enough.next descending plan member reached continues)
          (fun place part reached next continues => ?_)
        exact ih (reached.throughout keyed)
          (enough.next descending plan member reached continues)
      obtain ⟨result, made, ending, revised⟩ :=
        mapRoutes_passes each 0 origin touched patched calls whole free
      refine ⟨result, made, ending.imp (fun fuel other ended => ?_) |>.of_succ, revised⟩
      simp only [mapPlan, plan]
      exact ended

end

/-! ## Leaf positions of a value -/

section

variable {recognised : Value → Bool} {plans : Plans} {entry : Entry} {value part : Value}
  {place : List Value.Position}

/-- The leaf positions of a value with what it holds there, in the order of the routes, once for
each chain of routes that leads there. -/
def visits (recognised : Value → Bool) (traversal : Traversal) (value : Value) : Leaves :=
  visitsPlan recognised traversal.plans (2 * value.depth + 2) traversal.start value

/-- The leaves visited are those that chains of routes lead to. -/
theorem mem_visits_iff {traversal : Traversal} (descending : Descending traversal.plans) :
    (place, part) ∈ visits recognised traversal value ↔
      LeafAt recognised traversal.plans traversal.start value place part :=
  mem_visitsPlan_iff descending (.inl (Nat.le_refl _))

/-- A leaf position is where the value holds the leaf. -/
theorem LeafAt.at? (leafAt : LeafAt recognised plans entry value place part)
    (keyed : value.Throughout Value.Keyed) : value.at? place = some part := by
  induction leafAt with
  | here plan member reached goal known =>
    have found := reached.at?_append keyed []
    rwa [List.append_nil] at found
  | onward plan member reached continues tag rest ih =>
    rw [reached.at?_append keyed]
    exact ih (reached.throughout keyed)

/-- In a scalar nothing but the scalar is a leaf. -/
theorem LeafAt.recognised_of_scalar (leafAt : LeafAt recognised plans entry value place part)
    (scalar : value.tags? = none) : recognised value = true := by
  induction leafAt with
  | here plan member reached goal known => exact reached.eq_of_scalar scalar ▸ known
  | onward plan member reached continues tag rest ih =>
    obtain rfl := reached.eq_of_scalar scalar
    exact ih scalar

/-- Scalars that do not pass for leaves are quiet answers. -/
theorem calm_of_scalar {answer : Value} (scalar : answer.tags? = none)
    (unknown : recognised answer = false) : Calm recognised plans part answer := by
  rintro entry routes plan route member rest left ⟨place, inner, reached, ends⟩
  obtain rfl := reached.eq_of_scalar scalar
  have known : recognised inner = true := by
    obtain ⟨_, known⟩ | ⟨next, _, _, further, found, leafAt⟩ := ends
    · exact known
    · exact leafAt.recognised_of_scalar scalar
  exact absurd (unknown.symm.trans known) (by decide)

/-- Leaving a leaf as it is is quiet. -/
theorem calm_self : Calm recognised plans part part :=
  fun _ _ _ _ _ _ _ hits => hits

/-- When no position is called twice, the leaves are those of the calls. -/
theorem leavesOf_eq {calls : List Call} (distinct : (calls.map Call.position).Nodup) :
    leavesOf calls = calls.map (fun call => (call.position, call.argument)) := by
  have further : ∀ (calls : List Call) (leaves : Leaves),
      (leaves.map Prod.fst ++ calls.map Call.position).Nodup →
      calls.foldl (fun leaves call =>
        if leaves.any (fun leaf => leaf.1 = call.position) then leaves
        else leaves ++ [(call.position, call.argument)]) leaves =
        leaves ++ calls.map (fun call => (call.position, call.argument)) := by
    intro calls
    induction calls with
    | nil => simp
    | cons call rest ih =>
      intro leaves distinct
      have new : ¬ leaves.any (fun leaf => leaf.1 = call.position) = true := by
        rw [List.any_eq_true]
        rintro ⟨leaf, member, same⟩
        have apart := (List.nodup_append.mp distinct).2.2 leaf.1 (List.mem_map_of_mem member)
          call.position List.mem_cons_self
        exact apart (of_decide_eq_true same)
      rw [List.foldl_cons, if_neg new, ih]
      · simp
      · simpa using distinct
  exact further calls [] (by simpa using distinct)

/-- Tasks that succeed on the leaves in their turn have a result for each. -/
theorem resultsOf_of_each {task : Nat → Value → Except Fault Value} {f : Value → Value}
    {number : Nat} {leaves : Leaves}
    (each : ∀ index place part, leaves[index]? = some (place, part) →
      task (number + index) part = .ok (f part)) :
    resultsOf task number leaves = .ok (leaves.map (fun leaf => (leaf.1, f leaf.2))) := by
  induction leaves generalizing number with
  | nil => rfl
  | cons leaf rest ih =>
    have first := each 0 leaf.1 leaf.2 rfl
    have later := ih (fun index place part held => by
      have next := each (index + 1) place part held
      rwa [Nat.add_comm index 1, ← Nat.add_assoc] at next)
    rw [Nat.add_zero] at first
    rw [resultsOf, first, later]
    rfl

/-- Tasks that succeed have a result for each leaf. -/
theorem resultsOf_eq (f : Value → Value) (number : Nat) (leaves : Leaves) :
    resultsOf (fun _ part => .ok (f part)) number leaves =
      .ok (leaves.map (fun leaf => (leaf.1, f leaf.2))) :=
  resultsOf_of_each (fun _ _ _ _ => rfl)

/-- A mapping that succeeds is that of the plan that starts at the root. -/
theorem mapPlan_of_map {terms : Terms} {traversal : Traversal} {transform : Transform} {fuel : Nat}
    {origin : Identity} {progress : Progress}
    (mapped : traversal.map terms transform fuel origin value = .ok (.ok progress)) :
    mapPlan terms traversal.leaf traversal.plans transform fuel traversal.start origin [] value [] =
      .ok progress := by
  unfold Traversal.map at mapped
  split at mapped
  · cases mapped
  · cases mapped
  · split at mapped
    · cases mapped
    · next ended =>
      cases mapped
      exact ended

/-- The run of a compiled traversal on a value whose leaf positions are apart calls its transform
at the visits of the value, and depends on it only there. -/
theorem mapPlan_endsIn {terms : Terms} {transform : Transform} {traversal : Traversal}
    (recognises : Recognises terms traversal.leaf traversal.plans recognised)
    (byTags : ByTags recognised) (descending : Descending traversal.plans)
    (keyed : value.Throughout Value.Keyed)
    (apart : ((visits recognised traversal value).map Prod.fst).Pairwise Apart)
    (quiet : ∀ place part, LeafAt recognised traversal.plans traversal.start value place part →
      ∀ calls, Calm recognised traversal.plans part (transform calls place part))
    (origin : Identity) :
    ∃ result made, EndsIn transform (visits recognised traversal value)
        (fun fuel other => mapPlan terms traversal.leaf traversal.plans other fuel traversal.start
          origin [] value []) (result, made) ∧
      made.map (fun call => (call.position, call.argument)) =
        visits recognised traversal value := by
  have free : Free (Calm recognised traversal.plans) transform []
      (under [] (visits recognised traversal value)) := by
    rw [under_nil]
    exact ⟨apart, by simp,
      fun found member => quiet found.1 found.2 ((mem_visits_iff descending).mp member)⟩
  obtain ⟨result, made, ending, called, _⟩ :=
    mapPlan_passes recognises byTags descending keyed (.inl (Nat.le_refl _)) origin [] value []
      .same free
  rw [under_nil] at ending called
  exact ⟨result, made, ending, called⟩

end

end Conform.Traversal

namespace Conform.Context

open Traversal

variable {context : Context} {root leaf : NamedRef} {names : Nat} {traversal : Traversal}
  {value : Value}

/-- What passes for an instance of a name is told of containers by their tags. -/
theorem byTags (ref : NamedRef) : ByTags (context.recognises ref) :=
  ⟨recognises_array ref, recognises_object ref⟩

/-- The root and the leaf of a traversal are what it was compiled for. -/
theorem ends_of_between {definitions : Definitions}
    (compiled : between definitions names root leaf = .ok traversal) :
    traversal.root = root ∧ traversal.leaf = leaf := by
  unfold between at compiled
  split at compiled
  · cases compiled
    exact ⟨rfl, rfl⟩
  · split at compiled
    · cases compiled
    · simp only at compiled
      split at compiled
      · cases compiled
        exact ⟨rfl, rfl⟩
      · cases compiled

section

variable (strict : context.settings = .strict) (functional : context.Functional)
  (finite : ∃ known : List NamedRef, known.length ≤ names ∧
    Knows context.definitions known (.named root))
  (compiled : between context.definitions names root leaf = .ok traversal)
  (keyed : value.Throughout Value.Keyed) (belongs : context.recognises root value = true)
  (apart : ((visits (context.recognises leaf) traversal value).map Prod.fst).Pairwise Apart)

include finite compiled in
/-- The chains of routes of a compiled traversal descend. -/
theorem descending_of_between : Descending traversal.plans := by
  obtain ⟨known, bounded, knows⟩ := finite
  exact (compiled_of_between bounded knows compiled).descending

include strict functional finite compiled keyed belongs apart in
/-- A mapping whose answers are quiet ends, with the visits of the value as its calls. -/
theorem map_endsIn (transform : Transform)
    (quiet : ∀ place part, LeafAt (context.recognises leaf) traversal.plans traversal.start value
      place part → ∀ calls,
      Calm (context.recognises leaf) traversal.plans part (transform calls place part)) :
    ∃ least, ∀ limit, least ≤ limit → ∀ origin, ∃ result made,
      EndsIn transform (visits (context.recognises leaf) traversal value)
        (fun fuel other => traversal.map ⟨context.definitions, context.surroundings, limit⟩ other
          fuel origin value) (.ok (result, made)) ∧
      made.map (fun call => (call.position, call.argument)) =
        visits (context.recognises leaf) traversal value := by
  obtain ⟨known, bounded, knows⟩ := finite
  have inward := compiled_of_between bounded knows compiled
  obtain ⟨rfl, rfl⟩ := ends_of_between compiled
  obtain ⟨least, told⟩ := isA_iff_recognises strict functional traversal.leaf
  obtain ⟨least', told'⟩ := isA_iff_recognises strict functional traversal.root
  refine ⟨max least least', fun limit much origin => ?_⟩
  have recognises : Recognises ⟨context.definitions, context.surroundings, limit⟩ traversal.leaf
      traversal.plans (context.recognises traversal.leaf) :=
    ⟨told limit (by omega), inward.objects⟩
  obtain ⟨result, made, ending, called⟩ :=
    mapPlan_endsIn recognises (byTags _) inward.descending keyed apart quiet origin
  refine ⟨result, made, ending.imp (fun fuel other ended => ?_), called⟩
  obtain ⟨asked, checked, same⟩ := told' limit (by omega) origin value
  refine map_of_mapPlan checked ?_ ended
  rintro rfl
  exact absurd (same.trans belongs) (by decide)

include apart in
/-- Calls at the visits are at distinct positions. -/
theorem nodup_positions {calls : List Call}
    (called : calls.map (fun call => (call.position, call.argument)) =
      visits (context.recognises leaf) traversal value) : (calls.map Call.position).Nodup := by
  have positions : calls.map Call.position =
      (visits (context.recognises leaf) traversal value).map Prod.fst := by
    rw [← called, List.map_map]
    rfl
  rw [positions]
  refine apart.imp (fun apart => ?_)
  rintro rfl
  exact apart.1 List.prefix_rfl

end

/-- Where the leaf positions of a value are apart and answers are quiet, a mapping calls its
transform exactly once at each of them, with what the value holds there, and nowhere else. -/
theorem map_calls_leaves_once (strict : context.settings = .strict)
    (functional : context.Functional)
    (finite : ∃ known : List NamedRef, known.length ≤ names ∧
      Knows context.definitions known (.named root))
    (compiled : between context.definitions names root leaf = .ok traversal)
    (keyed : value.Throughout Value.Keyed) (belongs : context.recognises root value = true)
    (apart : ((visits (context.recognises leaf) traversal value).map Prod.fst).Pairwise Apart)
    (transform : Transform)
    (quiet : ∀ place part, LeafAt (context.recognises leaf) traversal.plans traversal.start value
      place part → ∀ calls,
      Calm (context.recognises leaf) traversal.plans part (transform calls place part)) :
    ∃ least, ∀ limit, least ≤ limit → ∀ origin, ∃ bound, ∀ fuel, bound ≤ fuel →
      ∃ result calls,
        traversal.map ⟨context.definitions, context.surroundings, limit⟩ transform fuel origin
          value = .ok (.ok (result, calls)) ∧
        (calls.map Call.position).Nodup ∧
        (∀ call ∈ calls, value.at? call.position = some call.argument) ∧
        ∀ place part, (∃ call ∈ calls, call.position = place ∧ call.argument = part) ↔
          LeafAt (context.recognises leaf) traversal.plans traversal.start value place part := by
  have descending := descending_of_between finite compiled
  obtain ⟨least, run⟩ := map_endsIn strict functional finite compiled keyed belongs apart
    transform quiet
  refine ⟨least, fun limit much origin => ?_⟩
  obtain ⟨result, calls, ⟨bound, ending⟩, called⟩ := run limit much origin
  have listed : ∀ place part, (∃ call ∈ calls, call.position = place ∧ call.argument = part) ↔
      LeafAt (context.recognises leaf) traversal.plans traversal.start value place part := by
    intro place part
    rw [← mem_visits_iff descending, ← called]
    simp only [List.mem_map, Prod.mk.injEq]
  exact ⟨bound, fun fuel enough => ⟨result, calls,
    ending fuel enough transform (fun _ _ _ => rfl), nodup_positions apart called,
    fun call member => ((listed _ _).mp ⟨call, member, rfl, rfl⟩).at? keyed, listed⟩⟩

end Conform.Context

namespace Conform.Shapes

open Traversal

/-- The way from shapes to circles: by themselves, or among the members of groups. -/
def circles : Traversal :=
  ⟨⟨0, "Shape"⟩, ⟨1, "Circle"⟩,
    [(⟨⟨0, "Shape"⟩, false⟩, [⟨[], .leaf⟩, ⟨[], .tagged ⟨2, "Group"⟩⟩]),
      (⟨⟨2, "Group"⟩, false⟩, [⟨[.property "members", .items], .leaf⟩,
        ⟨[.property "members", .items], .tagged ⟨2, "Group"⟩⟩])]⟩

/-- The traversal from shapes to circles is compiled. -/
theorem circles_compiled : between definitions 3 ⟨0, "Shape"⟩ ⟨1, "Circle"⟩ = .ok circles := by
  rfl

/-- The circle of the drawing, with its tag. -/
def taggedCircle : Value :=
  .object (.run 2) [("radius", .number radius), ("kind", .string "circle")]
    [.named ⟨1, "Circle"⟩]

/-- The drawing with its tags. -/
def taggedDrawing : Value :=
  .object (.run 0) [("kind", .string "group"), ("members", .array (.run 1) [taggedCircle] [])]
    [.named ⟨2, "Group"⟩, .named ⟨0, "Shape"⟩]

/-- The circle is at one place. -/
theorem visits_taggedDrawing :
    visits (Context.recognises ⟨definitions, fun _ => none, .strict⟩ ⟨1, "Circle"⟩) circles
      taggedDrawing = [([.key "members", .index 0], taggedCircle)] := by
  with_unfolding_all rfl

/-- The keys of the drawing are distinct throughout. -/
theorem keyed_taggedDrawing : taggedDrawing.Throughout Value.Keyed := by
  simp [taggedDrawing, taggedCircle, Value.Keyed, Fields.Distinct, Fields.keys]

/-- Replacing a circle by its radius is quiet. -/
theorem calm_radius (part : Value) :
    Calm (Context.recognises ⟨definitions, fun _ => none, .strict⟩ ⟨1, "Circle"⟩) circles.plans
      part (.number radius) :=
  calm_of_scalar rfl rfl

/-- The circle is replaced by its radius once. -/
theorem circle_replaced_once :
    let context : Context := ⟨definitions, fun _ => none, .strict⟩
    ∃ least, ∀ limit, least ≤ limit → ∀ origin, ∃ bound, ∀ fuel, bound ≤ fuel →
      ∃ result calls,
        circles.map ⟨context.definitions, context.surroundings, limit⟩
          (fun _ _ _ => .number radius) fuel origin taggedDrawing = .ok (.ok (result, calls)) ∧
        (calls.map Call.position).Nodup ∧
        (∀ call ∈ calls, taggedDrawing.at? call.position = some call.argument) ∧
        ∀ place part, (∃ call ∈ calls, call.position = place ∧ call.argument = part) ↔
          LeafAt (context.recognises ⟨1, "Circle"⟩) circles.plans circles.start taggedDrawing
            place part := by
  intro context
  have apart : ((visits (context.recognises ⟨1, "Circle"⟩) circles taggedDrawing).map
      Prod.fst).Pairwise Apart := by
    rw [visits_taggedDrawing]
    exact List.pairwise_singleton _ _
  have functional : context.Functional := by
    intro name inner known
    cases known
  exact Context.map_calls_leaves_once rfl functional
    ⟨names, Nat.le_refl 3, knows⟩ circles_compiled keyed_taggedDrawing rfl apart
    (fun _ _ _ => .number radius)
    (fun _ part _ _ => calm_radius part)

end Conform.Shapes

/-! ## Two ways to one leaf

An item is a price in two ways at once, so two chains of routes lead to one price.
-/

namespace Conform.Twofold

open Traversal

/-- The price and what holds it. -/
def definitions (ref : NamedRef) : Schema :=
  match ref.key with
  | 0 => .object 0 [⟨"item", true, none,
      .intersection 1 [.named ⟨1, "Left"⟩, .named ⟨2, "Right"⟩]⟩] .keep
  | 1 => .object 2 [⟨"price", true, none, .named ⟨3, "Price"⟩⟩] .keep
  | 2 => .object 3 [⟨"price", true, none, .named ⟨3, "Price"⟩⟩] .keep
  | _ => .object 4 [⟨"amount", true, none, .number 5 {}⟩] .keep

/-- A price with its tag. -/
def price (amount : Value) : Value :=
  .object (.run 2) [("amount", amount)] [.named ⟨3, "Price"⟩]

/-- An order of one item, with its tags. -/
def order (amount : Value) : Value :=
  .object (.run 0) [("item", .object (.run 1) [("price", price amount)]
    [.named ⟨1, "Left"⟩, .named ⟨2, "Right"⟩])] [.named ⟨0, "Order"⟩]

/-- Puts the amount of a price into a list, and keeps the tag. -/
def listed (value : Value) : Value :=
  value.withField (.run 4) "amount"
    (.array (.run 5) [(value.child? (.key "amount")).getD .undefined] [])

/-- What judges orders. -/
def context : Context :=
  ⟨definitions, fun _ => none, .strict⟩

/-- The way from orders to prices, by either name of an item. -/
def prices : Traversal :=
  ⟨⟨0, "Order"⟩, ⟨3, "Price"⟩,
    [(⟨⟨0, "Order"⟩, false⟩,
        [⟨[.property "item"], .tagged ⟨1, "Left"⟩⟩, ⟨[.property "item"], .tagged ⟨2, "Right"⟩⟩]),
      (⟨⟨1, "Left"⟩, false⟩, [⟨[.property "price"], .leaf⟩]),
      (⟨⟨2, "Right"⟩, false⟩, [⟨[.property "price"], .leaf⟩])]⟩

/-- Where the price is. -/
def place : List Value.Position :=
  [.key "item", .key "price"]

/-- The price is called twice, the second time on the answer of the first call. -/
theorem price_called_twice :
    between definitions 4 ⟨0, "Order"⟩ ⟨3, "Price"⟩ = .ok prices ∧
      context.recognises ⟨0, "Order"⟩ (order .null) = true ∧
      (prices.map ⟨definitions, context.surroundings, 10⟩ (fun _ _ part => listed part) 10
        (.run 3) (order .null)).map (fun outcome => outcome.map Prod.snd) =
        .ok (.ok [⟨place, price .null, listed (price .null)⟩,
          ⟨place, listed (price .null), listed (listed (price .null))⟩]) ∧
      (order .null).at? place = some (price .null) ∧ listed (price .null) ≠ price .null := by
  refine ⟨rfl, ?_, ?_, rfl, ?_⟩
  · decide +kernel
  · with_unfolding_all rfl
  · simp [listed, price, Value.withField]

end Conform.Twofold

namespace Conform.Context

open Traversal

variable {context : Context} {root leaf : NamedRef} {names : Nat} {traversal : Traversal}
  {value : Value}

/-- Where the leaf positions of a value are apart and the answers are quiet, mapping by a function
comes to the same as running it on all leaves first and putting its results in place together,
in whatever order they are listed. -/
theorem map_eq_mapAtOnce (strict : context.settings = .strict)
    (functional : context.Functional)
    (finite : ∃ known : List NamedRef, known.length ≤ names ∧
      Knows context.definitions known (.named root))
    (compiled : between context.definitions names root leaf = .ok traversal)
    (keyed : value.Throughout Value.Keyed) (belongs : context.recognises root value = true)
    (apart : ((visits (context.recognises leaf) traversal value).map Prod.fst).Pairwise Apart)
    (f : Value → Value)
    (quiet : ∀ place part, LeafAt (context.recognises leaf) traversal.plans traversal.start value
      place part → Calm (context.recognises leaf) traversal.plans part (f part)) :
    ∃ least, ∀ limit, least ≤ limit → ∀ origin, ∃ bound, ∀ fuel, bound ≤ fuel →
      ∃ result calls,
        traversal.map ⟨context.definitions, context.surroundings, limit⟩ (fun _ _ part => f part)
          fuel origin value = .ok (.ok (result, calls)) ∧
        traversal.mapAtOnce ⟨context.definitions, context.surroundings, limit⟩
          (fun _ part => .ok (f part)) fuel origin value = .ok (.ok result) ∧
        ∀ results : Leaves,
          results.Perm (calls.map (fun call => (call.position, f call.argument))) →
          traversal.map ⟨context.definitions, context.surroundings, limit⟩ (replacing results) fuel
            origin value = .ok (.ok (result, calls)) := by
  obtain ⟨least, run⟩ := map_endsIn strict functional finite compiled keyed belongs apart
    (fun _ _ part => f part) (fun place part leafAt calls => quiet place part leafAt)
  obtain ⟨least', run'⟩ := map_endsIn strict functional finite compiled keyed belongs apart
    unchanged (fun place part leafAt calls => calm_self)
  refine ⟨max least least', fun limit much origin => ?_⟩
  obtain ⟨result, calls, ⟨bound, ending⟩, called⟩ := run limit (by omega) origin
  obtain ⟨still, seen, ⟨bound', ending'⟩, called'⟩ := run' limit (by omega) origin
  have distinct := nodup_positions apart called
  refine ⟨max bound bound', fun fuel enough => ?_⟩
  -- results for the leaves answer like the function at every visit
  have replaced : ∀ results : Leaves,
      results.Perm (calls.map (fun call => (call.position, f call.argument))) →
      traversal.map ⟨context.definitions, context.surroundings, limit⟩ (replacing results) fuel
        origin value = .ok (.ok (result, calls)) := by
    intro results perm
    refine ending fuel (by omega) _ (fun found visited before => ?_)
    rw [← called] at visited
    obtain ⟨call, member, rfl⟩ := List.mem_map.mp visited
    have single : (results.map Prod.fst).Nodup := by
      rw [(perm.map Prod.fst).nodup_iff, List.map_map]
      exact distinct
    have listed : (call.position, f call.argument) ∈ results :=
      perm.mem_iff.mpr (List.mem_map.mpr ⟨call, member, rfl⟩)
    rw [replacing, lookup_eq_some_of_mem single listed]
    rfl
  refine ⟨result, calls, ending fuel (by omega) _ (fun _ _ _ => rfl), ?_, replaced⟩
  have found : leavesOf seen = calls.map (fun call => (call.position, call.argument)) := by
    rw [leavesOf_eq (nodup_positions apart called'), called', called]
  have first : traversal.map ⟨context.definitions, context.surroundings, limit⟩ unchanged fuel
      origin value = .ok (.ok (still, seen)) :=
    ending' fuel (by omega) unchanged (fun _ _ _ => rfl)
  have second := mapPlan_of_map (replaced _ List.Perm.rfl)
  rw [Traversal.mapAtOnce, Traversal.leaves, first]
  simp only [found, resultsOf_eq, List.map_map, Function.comp_def, second]

end Conform.Context

namespace Conform.Shapes

open Traversal

/-- The circle is replaced by its radius in both ways alike. -/
theorem circle_replaced_alike :
    let context : Context := ⟨definitions, fun _ => none, .strict⟩
    ∃ least, ∀ limit, least ≤ limit → ∀ origin, ∃ bound, ∀ fuel, bound ≤ fuel →
      ∃ result calls,
        circles.map ⟨context.definitions, context.surroundings, limit⟩
          (fun _ _ _ => .number radius) fuel origin taggedDrawing = .ok (.ok (result, calls)) ∧
        circles.mapAtOnce ⟨context.definitions, context.surroundings, limit⟩
          (fun _ _ => .ok (.number radius)) fuel origin taggedDrawing = .ok (.ok result) ∧
        ∀ results : Leaves,
          results.Perm (calls.map (fun call => (call.position, .number radius))) →
          circles.map ⟨context.definitions, context.surroundings, limit⟩ (replacing results) fuel
            origin taggedDrawing = .ok (.ok (result, calls)) := by
  intro context
  have apart : ((visits (context.recognises ⟨1, "Circle"⟩) circles taggedDrawing).map
      Prod.fst).Pairwise Apart := by
    rw [visits_taggedDrawing]
    exact List.pairwise_singleton _ _
  have functional : context.Functional := by
    intro name inner known
    cases known
  exact Context.map_eq_mapAtOnce rfl functional
    ⟨names, Nat.le_refl 3, knows⟩ circles_compiled keyed_taggedDrawing rfl apart
    (fun _ => .number radius)
    (fun _ part _ => calm_radius part)

end Conform.Shapes

namespace Conform.Twofold

open Traversal

/-- Mapping in one pass and running the tasks first come to different orders. -/
theorem price_mapped_differently :
    match prices.map ⟨definitions, context.surroundings, 10⟩ (fun _ _ part => listed part) 10
        (.run 3) (order .null),
      prices.mapAtOnce ⟨definitions, context.surroundings, 10⟩ (fun _ part => .ok (listed part)) 10
        (.run 3) (order .null) with
    | .ok (.ok (result, _)), .ok (.ok result') => result.eq result' = false
    | _, _ => False := by
  with_unfolding_all rfl

end Conform.Twofold
