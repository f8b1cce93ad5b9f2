import Conform.Proofs.Lists
import Conform.Proofs.Traversal.Plans
import Conform.Proofs.Traversal.Visits

/-!
# What compiled traversals are like

The routes of a compiled traversal come from meetings of a search, so they descend: a name
that recurs is met after a step, and a plan that starts at an object leads inwards. The
plans that stay lead to the same leaf positions as all plans that were made.
-/

namespace Conform.Traversal

section

variable {definitions : Definitions} {root leaf : NamedRef} {entered : Entered}
  {steps : List Step} {forked : Bool} {schema : Schema} {route : Route}

/-- A route goes on from where its meeting starts, to a name that recurs only after a step, and
tells by their tags only names that are directly objects. -/
theorem Meets.inward (meets : Meets definitions leaf entered steps forked schema (some route)) :
    steps <+: route.steps ∧
      (∀ ref ambiguous, route.goal = .shaped ref ambiguous → route.steps ≠ []) ∧
      ∀ ref, route.goal = .tagged ref → ref.isObject definitions = true := by
  generalize target : some route = result at meets
  induction meets with
  | property member inside ih =>
    exact ⟨(List.prefix_append _ _).trans (ih target).1, (ih target).2⟩
  | additional inside ih => exact ⟨(List.prefix_append _ _).trans (ih target).1, (ih target).2⟩
  | items inside ih => exact ⟨(List.prefix_append _ _).trans (ih target).1, (ih target).2⟩
  | option member inside ih => exact ih target
  | component member inside ih => exact ih target
  | name enters inside ih => exact ih target
  | leaf told =>
    cases target
    exact ⟨List.prefix_rfl, by simp, by simp⟩
  | unclear indirect => cases target
  | tagged other object =>
    cases target
    refine ⟨List.prefix_rfl, by simp, fun ref goal => ?_⟩
    cases goal
    exact object
  | shaped other indirect inside deeper =>
    cases target
    have stepped := List.ne_nil_of_length_pos (Nat.zero_lt_of_lt deeper)
    exact ⟨List.prefix_rfl, fun _ _ _ => stepped, by simp⟩

/-- From an object every route leads inwards. -/
theorem Entry.Meets.steps_ne_nil {ref : NamedRef} {ambiguous : Bool}
    (object : ref.isObject definitions = true)
    (meets : Entry.Meets definitions leaf ⟨ref, ambiguous⟩ (some route)) : route.steps ≠ [] := by
  obtain ⟨node, properties, additional, found⟩ := NamedRef.isObject_iff.mp object
  unfold Entry.Meets at meets
  simp only [found] at meets
  cases meets with
  | property member inside => exact inside.inward.1.ne_nil (by simp)
  | additional inside => exact inside.inward.1.ne_nil (by simp)

/-- What the plans of every compiled traversal satisfy. -/
structure Compiled (definitions : Definitions) (plans : Plans) : Prop where
  descending : Descending plans
  objects : ∀ entry routes, plans.lookup entry = some routes → ∀ route ∈ routes, ∀ ref,
    route.goal = .tagged ref → ref.isObject definitions = true
  distinct : ∀ entry routes, plans.lookup entry = some routes → routes.Nodup

/-- Plans whose routes are met, each once, are those of a compiled traversal. -/
theorem compiled_of_meets {plans : Plans}
    (meets : ∀ entry routes, plans.lookup entry = some routes →
      routes.Nodup ∧ ∀ route ∈ routes, entry.Meets definitions leaf (some route)) :
    Compiled definitions plans where
  descending :=
    { shaped := fun entry routes plan route member ref ambiguous goal =>
        (Traversal.Meets.inward ((meets entry routes plan).2 route member)).2.1 ref ambiguous goal
      tagged := fun entry routes plan route member ref goal inner plan' further member' =>
        Entry.Meets.steps_ne_nil
          ((Traversal.Meets.inward ((meets entry routes plan).2 route member)).2.2 ref goal)
          ((meets _ inner plan').2 further member') }
  objects entry routes plan route member :=
    (Traversal.Meets.inward ((meets entry routes plan).2 route member)).2.2
  distinct entry routes plan := (meets entry routes plan).1

/-- The routes of the plans that stay are met, each once. -/
theorem Underway.meets_live {scheduled : List Entry} {plans : Plans}
    (made : Underway definitions root leaf [] scheduled plans) {entry : Entry}
    {routes : List Route} (plan : (live plans).lookup entry = some routes) :
    routes.Nodup ∧ ∀ route ∈ routes, entry.Meets definitions leaf (some route) := by
  obtain ⟨all, planned, _, rfl⟩ := mem_live_iff.mp (mem_of_lookup_eq_some plan)
  have faithful := made.faithful _ planned
  exact ⟨faithful.distinct.filter _, fun route member =>
    (faithful.routes route).mp (List.mem_filter.mp member).1⟩

/-- The way from a name to itself is at its end at once. -/
theorem eq_of_lookup_alone {entry : Entry} {routes : List Route}
    (plan : List.lookup entry [((⟨root, false⟩ : Entry), [(⟨[], .leaf⟩ : Route)])] = some routes) :
    routes = [⟨[], .leaf⟩] := by
  cases List.mem_singleton.mp (mem_of_lookup_eq_some plan)
  rfl

/-- Every traversal that compiling answers is compiled. -/
theorem compiled_of_between {known : List NamedRef} {names : Nat} {traversal : Traversal}
    (bounded : known.length ≤ names) (knows : Knows definitions known (.named root))
    (answered : between definitions names root leaf = .ok traversal) :
    Compiled definitions traversal.plans := by
  by_cases other : root = leaf
  · rw [between, if_pos other] at answered
    cases answered
    have ends : ∀ entry routes,
        List.lookup entry [((⟨root, false⟩ : Entry), [(⟨[], .leaf⟩ : Route)])] = some routes →
        ∀ route ∈ routes, route.goal = .leaf := by
      intro entry routes plan route member
      rw [eq_of_lookup_alone plan] at member
      cases List.mem_singleton.mp member
      rfl
    refine ⟨⟨fun entry routes plan route member ref ambiguous goal => ?_,
      fun entry routes plan route member ref goal => ?_⟩,
      fun entry routes plan route member ref goal => ?_, fun entry routes plan => ?_⟩
    · rw [ends entry routes plan route member] at goal
      cases goal
    · rw [ends entry routes plan route member] at goal
      cases goal
    · rw [ends entry routes plan route member] at goal
      cases goal
    · rw [eq_of_lookup_alone plan]
      exact List.pairwise_singleton _ _
  · obtain ⟨scheduled, plans, made, rfl⟩ := plans_of_between bounded knows other answered
    exact compiled_of_meets (fun entry routes plan => made.meets_live plan)

end

section

variable {recognised : Value → Bool} {plans : Plans} {entry : Entry} {value leaf : Value}
  {place : List Value.Position}

/-- A plan with a leaf position is live. -/
theorem LeafAt.live (leafAt : LeafAt recognised plans entry value place leaf) :
    Live plans entry := by
  induction leafAt with
  | here plan member steps goal known =>
    refine .intro (mem_of_lookup_eq_some plan) member (fun next continues => ?_)
    rw [goal] at continues
    cases continues
  | onward plan member steps continues tag rest ih =>
    refine .intro (mem_of_lookup_eq_some plan) member (fun next continues' => ?_)
    rw [continues] at continues'
    cases continues'
    exact ih

/-- Every leaf position is one of the plans that stay. -/
theorem LeafAt.kept (distinct : (plans.map Prod.fst).Nodup)
    (leafAt : LeafAt recognised plans entry value place leaf) :
    LeafAt recognised (Traversal.live plans) entry value place leaf := by
  have kept : ∀ {entry routes route value place leaf}, plans.lookup entry = some routes →
      route ∈ routes → (∀ next, route.goal.entry? = some next → Live plans next) →
      LeafAt recognised plans entry value place leaf →
      ∃ fewer, (Traversal.live plans).lookup entry = some fewer ∧ route ∈ fewer := by
    intro entry routes route value place leaf plan member leads leafAt
    have stays := mem_live_iff.mpr ⟨routes, mem_of_lookup_eq_some plan, leafAt.live, rfl⟩
    refine ⟨_, lookup_eq_some_of_mem (nodup_live distinct) stays, List.mem_filter.mpr ⟨member, ?_⟩⟩
    exact leadsTo_iff.mpr (fun next continues => mem_liveEntries_iff.mpr (leads next continues))
  induction leafAt with
  | here plan member steps goal known =>
    obtain ⟨fewer, plan', member'⟩ := kept plan member (fun next continues => by
      rw [goal] at continues
      cases continues) (.here plan member steps goal known)
    exact .here plan' member' steps goal known
  | onward plan member steps continues tag rest ih =>
    obtain ⟨fewer, plan', member'⟩ := kept plan member (fun next continues' => by
      rw [continues] at continues'
      cases continues'
      exact rest.live) (.onward plan member steps continues tag rest)
    exact .onward plan' member' steps continues tag ih

end

end Conform.Traversal
