import Conform.Proofs.Traversal.Pruning
import Conform.Proofs.Traversal.Search

/-!
# What the plans are

The plans are made one after the other until none is left to make or a leaf is met that
cannot be told apart. Without a bound that is a relation again, and the bound of the loop
suffices because a name is planned for at most twice, behind a choice and not.

The plans made are those that chains of routes lead to from the root, each once and each
with the routes that its meetings lead to. The live ones among them stay.
-/

namespace Conform.Traversal

/-- A way of the search that plans for the entry to a result. -/
def Entry.Meets (definitions : Definitions) (leaf : NamedRef) (entry : Entry)
    (result : Option Route) : Prop :=
  Traversal.Meets definitions leaf [(entry.ref, 0)] [] entry.ambiguous (definitions entry.ref)
    result

/-- A route leads from one plan to the next. -/
def Entry.Leads (definitions : Definitions) (leaf : NamedRef) (entry next : Entry) : Prop :=
  ∃ route, entry.Meets definitions leaf (some route) ∧ route.goal.entry? = some next

/-- A chain of routes leads from the root to the plan. -/
def Entry.Explored (definitions : Definitions) (root leaf : NamedRef) : Entry → Prop :=
  Relation.ReflTransGen (Entry.Leads definitions leaf) ⟨root, false⟩

/-- How planning ends, when it may make plans and enter names without a bound. -/
inductive Builds (definitions : Definitions) (leaf : NamedRef) :
    List Pending → List Entry → Plans → Except String Plans → Prop
  | done {scheduled : List Entry} {plans : Plans} :
      Builds definitions leaf [] scheduled plans (.ok plans)
  | unclear {pending : Pending} {queue : List Pending} {scheduled : List Entry} {plans : Plans}
      {found : List Sighting} {path : String}
      (searched : Searched definitions leaf [(pending.1, 0)]
        ⟨[], pending.2, definitions pending.1⟩ found)
      (unclear : ambiguity? found = some path) :
      Builds definitions leaf (pending :: queue) scheduled plans (.error path)
  | next {pending : Pending} {queue : List Pending} {scheduled : List Entry} {plans : Plans}
      {found : List Sighting} {outcome : Except String Plans}
      (searched : Searched definitions leaf [(pending.1, 0)]
        ⟨[], pending.2, definitions pending.1⟩ found)
      (clear : ambiguity? found = none)
      (rest : Builds definitions leaf (schedule (queue, scheduled) (continuations found)).1
        (schedule (queue, scheduled) (continuations found)).2
        (plans ++ [(entryOf pending, routesOf found)]) outcome) :
      Builds definitions leaf (pending :: queue) scheduled plans outcome

/-! ## What one search contributes -/

section

variable {found : List Sighting} {route : Route} {path : String}

/-- No path is ambiguous when every sighting has a route. -/
theorem ambiguity?_eq_none_iff : ambiguity? found = none ↔ none ∉ found.map Sighting.result := by
  rw [ambiguity?, List.findSome?_eq_none_iff, List.mem_map, not_exists]
  refine forall_congr' (fun sighting => ?_)
  cases sighting <;> simp [Sighting.result]

/-- An ambiguous path is that of a sighting without a route. -/
theorem mem_of_ambiguity? (unclear : ambiguity? found = some path) :
    none ∈ found.map Sighting.result := by
  by_contra clear
  rw [ambiguity?_eq_none_iff.mpr clear] at unclear
  cases unclear

/-- Collecting routes keeps each once and loses none. -/
theorem mem_collected_iff (routes collected : List Route) :
    route ∈ routes.foldl (fun routes route =>
      if routes.contains route then routes else routes ++ [route]) collected ↔
      route ∈ collected ∨ route ∈ routes := by
  induction routes generalizing collected with
  | nil => simp
  | cons first rest ih =>
    rw [List.foldl_cons, ih]
    split <;> rename_i listed
    · simp only [List.contains_iff_mem] at listed
      rw [List.mem_cons]
      grind
    · rw [List.mem_append, List.mem_singleton, List.mem_cons, or_assoc]

/-- Routes that are collected once each stay distinct. -/
theorem nodup_collected (routes : List Route) {collected : List Route}
    (distinct : collected.Nodup) :
    (routes.foldl (fun routes route =>
      if routes.contains route then routes else routes ++ [route]) collected).Nodup := by
  induction routes generalizing collected with
  | nil => exact distinct
  | cons first rest ih =>
    rw [List.foldl_cons]
    split <;> rename_i listed
    · exact ih distinct
    · rw [List.contains_iff_mem] at listed
      exact ih (List.nodup_append.mpr ⟨distinct, List.pairwise_singleton _ first, by grind⟩)

/-- The routes are those of the sightings that have one. -/
theorem mem_routesOf_iff : route ∈ routesOf found ↔ some route ∈ found.map Sighting.result := by
  rw [routesOf, mem_collected_iff, List.mem_filterMap, List.mem_map]
  simp only [List.not_mem_nil, false_or]
  refine exists_congr (fun sighting => and_congr_right (fun _ => ?_))
  cases sighting <;> simp [Sighting.result]

/-- The routes are distinct. -/
theorem nodup_routesOf : (routesOf found).Nodup :=
  nodup_collected _ List.nodup_nil

/-- The plans that are made next are those that the routes lead to. -/
theorem mem_continuations_iff (marked : ∀ sighting ∈ found, sighting.Marked) {next : Entry} :
    next ∈ (continuations found).map entryOf ↔
      ∃ route ∈ routesOf found, route.goal.entry? = some next := by
  constructor
  · intro member
    obtain ⟨pending, listed, rfl⟩ := List.mem_map.mp member
    obtain ⟨sighting, sighted, continues⟩ := List.mem_filterMap.mp listed
    have faithful := marked sighting sighted
    match sighting with
    | .ambiguous _ => cases continues
    | .route ⟨_, .leaf⟩ _ => cases continues
    | .route ⟨steps, .tagged ref⟩ behind =>
      cases continues
      refine ⟨⟨steps, .tagged ref⟩, mem_routesOf_iff.mpr ?_, rfl⟩
      exact List.mem_map.mpr ⟨_, sighted, rfl⟩
    | .route ⟨steps, .shaped ref forked⟩ behind =>
      cases continues
      cases faithful
      refine ⟨⟨steps, .shaped ref behind.isSome⟩, mem_routesOf_iff.mpr ?_, rfl⟩
      exact List.mem_map.mpr ⟨_, sighted, rfl⟩
  · rintro ⟨route, member, continues⟩
    obtain ⟨sighting, sighted, same⟩ := List.mem_map.mp (mem_routesOf_iff.mp member)
    have faithful := marked sighting sighted
    match sighting with
    | .ambiguous _ => cases same
    | .route ⟨_, .leaf⟩ _ =>
      cases same
      cases continues
    | .route ⟨steps, .tagged ref⟩ behind =>
      cases same
      cases continues
      exact List.mem_map.mpr ⟨(ref, none), List.mem_filterMap.mpr ⟨_, sighted, rfl⟩, rfl⟩
    | .route ⟨steps, .shaped ref forked⟩ behind =>
      cases same
      cases continues
      cases faithful
      exact List.mem_map.mpr ⟨(ref, behind), List.mem_filterMap.mpr ⟨_, sighted, rfl⟩, rfl⟩

end

/-! ## The loop -/

/-- What scheduling keeps and adds: the entries of the queue come after those that are done,
none twice, and what is found is among them. -/
theorem schedule_spec (done : List Entry) (queue : List Pending) (scheduled : List Entry)
    (order : scheduled = done ++ queue.map entryOf) (distinct : scheduled.Nodup)
    (found : List Pending) :
    (schedule (queue, scheduled) found).2 =
        done ++ (schedule (queue, scheduled) found).1.map entryOf ∧
      (schedule (queue, scheduled) found).2.Nodup ∧
      ∀ entry, entry ∈ (schedule (queue, scheduled) found).2 ↔
        entry ∈ scheduled ∨ entry ∈ found.map entryOf := by
  induction found generalizing queue scheduled with
  | nil =>
    refine ⟨order, distinct, fun entry => ?_⟩
    simp [schedule]
  | cons first rest ih =>
    rw [schedule, List.foldl_cons, ← schedule]
    by_cases listed : scheduled.contains (entryOf first)
    · rw [if_pos listed]
      obtain ⟨orderly, apart, members⟩ := ih queue scheduled order distinct
      refine ⟨orderly, apart, fun entry => ?_⟩
      rw [members, List.map_cons, List.mem_cons]
      rw [List.contains_iff_mem] at listed
      grind
    · rw [if_neg listed]
      rw [List.contains_iff_mem] at listed
      obtain ⟨orderly, apart, members⟩ := ih (queue ++ [first]) (scheduled ++ [entryOf first])
        (by rw [order, List.map_append, List.append_assoc]; rfl)
        (List.nodup_append.mpr ⟨distinct, List.pairwise_singleton _ _, by grind⟩)
      refine ⟨orderly, apart, fun entry => ?_⟩
      rw [members, List.map_cons, List.mem_cons, List.mem_append, List.mem_singleton, or_assoc]

/-- A plan has the routes that its meetings lead to, each once, and meets no leaf that
cannot be told apart. -/
structure Faithful (definitions : Definitions) (leaf : NamedRef) (plan : Entry × List Route) :
    Prop where
  routes : ∀ route, route ∈ plan.2 ↔ plan.1.Meets definitions leaf (some route)
  distinct : plan.2.Nodup
  clear : ¬ plan.1.Meets definitions leaf none

/-- What holds while plans are made: plans made and to make are those scheduled, each once;
a chain leads to each of them from the root; and the plans made are faithful and lead only to
scheduled ones. -/
structure Underway (definitions : Definitions) (root leaf : NamedRef) (queue : List Pending)
    (scheduled : List Entry) (plans : Plans) : Prop where
  order : scheduled = plans.map Prod.fst ++ queue.map entryOf
  distinct : scheduled.Nodup
  first : ⟨root, false⟩ ∈ scheduled
  explored : ∀ entry ∈ scheduled, entry.Explored definitions root leaf
  faithful : ∀ plan ∈ plans, Faithful definitions leaf plan
  closed : ∀ plan ∈ plans, ∀ route ∈ plan.2, ∀ next, route.goal.entry? = some next →
    next ∈ scheduled

section

variable {definitions : Definitions} {root leaf : NamedRef} {pending : Pending}
  {queue : List Pending} {scheduled : List Entry} {plans : Plans} {found : List Sighting}

/-- The making of plans is underway at the root. -/
theorem Underway.initial (definitions : Definitions) (root leaf : NamedRef) :
    Underway definitions root leaf [(root, none)] [⟨root, false⟩] [] where
  order := rfl
  distinct := List.pairwise_singleton _ _
  first := List.mem_singleton.mpr rfl
  explored := by
    rintro _ member
    obtain rfl := List.mem_singleton.mp member
    exact .refl
  faithful := by simp
  closed := by simp

/-- What the search for a plan meets is what its entry meets. -/
theorem Entry.meets_iff (searched : Searched definitions leaf [(pending.1, 0)]
      ⟨[], pending.2, definitions pending.1⟩ found) (result : Option Route) :
    (entryOf pending).Meets definitions leaf result ↔ result ∈ found.map Sighting.result :=
  searched.mem_iff.symm

/-- A search that meets no leaf that cannot be told apart makes a faithful plan. -/
theorem faithful_of_searched (searched : Searched definitions leaf [(pending.1, 0)]
      ⟨[], pending.2, definitions pending.1⟩ found) (clear : ambiguity? found = none) :
    Faithful definitions leaf (entryOf pending, routesOf found) where
  routes route := mem_routesOf_iff.trans (Entry.meets_iff searched (some route)).symm
  distinct := nodup_routesOf
  clear := fun unclear =>
    ambiguity?_eq_none_iff.mp clear ((Entry.meets_iff searched none).mp unclear)

/-- Making one plan keeps what holds while plans are made. -/
theorem Underway.next (underway : Underway definitions root leaf (pending :: queue) scheduled plans)
    (searched : Searched definitions leaf [(pending.1, 0)]
      ⟨[], pending.2, definitions pending.1⟩ found) (clear : ambiguity? found = none) :
    Underway definitions root leaf (schedule (queue, scheduled) (continuations found)).1
      (schedule (queue, scheduled) (continuations found)).2
      (plans ++ [(entryOf pending, routesOf found)]) := by
  have made := faithful_of_searched searched clear
  have order : scheduled =
      (plans ++ [(entryOf pending, routesOf found)]).map Prod.fst ++ queue.map entryOf := by
    rw [underway.order]
    simp
  obtain ⟨orderly, apart, members⟩ :=
    schedule_spec _ queue scheduled order underway.distinct (continuations found)
  have here : entryOf pending ∈ scheduled := by
    rw [underway.order]
    exact List.mem_append_right _ (List.mem_map_of_mem List.mem_cons_self)
  refine
    { order := orderly
      distinct := apart
      first := (members _).mpr (.inl underway.first)
      explored := fun entry member => ?_
      faithful := fun plan member => ?_
      closed := fun plan member route listed next continues => ?_ }
  · obtain old | new := (members entry).mp member
    · exact underway.explored entry old
    · obtain ⟨route, listed, continues⟩ := (mem_continuations_iff searched.marked).mp new
      exact .tail (underway.explored _ here) ⟨route, (made.routes route).mp listed, continues⟩
  · obtain old | new := List.mem_append.mp member
    · exact underway.faithful plan old
    · obtain rfl := List.mem_singleton.mp new
      exact made
  · refine (members next).mpr ?_
    obtain old | new := List.mem_append.mp member
    · exact .inl (underway.closed plan old route listed next continues)
    · obtain rfl := List.mem_singleton.mp new
      exact .inr ((mem_continuations_iff searched.marked).mpr ⟨route, listed, continues⟩)

/-- Planning ends with plans that are underway with nothing left to make, or at a plan that
meets a leaf that cannot be told apart. -/
theorem Builds.outcome {outcome : Except String Plans}
    (builds : Builds definitions leaf queue scheduled plans outcome)
    (underway : Underway definitions root leaf queue scheduled plans) :
    (∀ made, outcome = .ok made → ∃ scheduled, Underway definitions root leaf [] scheduled made) ∧
      (∀ path, outcome = .error path → ∃ entry : Entry,
        entry.Explored definitions root leaf ∧ entry.Meets definitions leaf none) := by
  induction builds with
  | done =>
    refine ⟨fun made same => ?_, fun path same => (nomatch same)⟩
    cases same
    exact ⟨_, underway⟩
  | @unclear pending queue scheduled plans found path searched unclear =>
    refine ⟨fun made same => (nomatch same), fun path same => ?_⟩
    refine ⟨entryOf pending, underway.explored _ ?_, ?_⟩
    · rw [underway.order]
      exact List.mem_append_right _ (List.mem_map_of_mem List.mem_cons_self)
    · exact (Entry.meets_iff searched none).mpr (mem_of_ambiguity? unclear)
  | next searched clear rest ih => exact ih (underway.next searched clear)

/-! ## The bound suffices -/

/-- The names planned for are reached from the root. -/
theorem Entry.Explored.reaches {entry : Entry} (explored : entry.Explored definitions root leaf) :
    (Schema.named root).Reaches definitions (.named entry.ref) := by
  induction explored with
  | refl => exact .refl
  | tail _ leads ih =>
    obtain ⟨route, meets, continues⟩ := leads
    have inside := meets.reaches continues
    exact ih.trans (.head (List.mem_append_left _ Schema.definition_mem_facets) inside)

/-- So many known names can be planned for at most twice as often. -/
theorem Underway.few {known : List NamedRef}
    (underway : Underway definitions root leaf queue scheduled plans)
    (knows : Knows definitions known (.named root)) : scheduled.length ≤ 2 * known.length := by
  have inside : scheduled ⊆ known.flatMap (fun ref => [⟨ref, false⟩, ⟨ref, true⟩]) := by
    intro entry member
    refine List.mem_flatMap.mpr ⟨entry.ref, knows _ (underway.explored entry member).reaches, ?_⟩
    obtain ⟨ref, ambiguous⟩ := entry
    cases ambiguous <;> simp
  have fewer := (List.Nodup.subperm underway.distinct inside).length_le
  simpa [List.length_flatMap, Nat.mul_comm] using fewer

/-- A loop that may make two plans for each known name does what planning without a bound
does. -/
theorem Underway.builds {known : List NamedRef} {names fuel : Nat}
    (underway : Underway definitions root leaf queue scheduled plans)
    (knows : Knows definitions known (.named root)) (bounded : known.length ≤ names)
    (enough : 2 * names < fuel + plans.length) :
    Builds definitions leaf queue scheduled plans
      (buildPlans definitions leaf names fuel queue scheduled plans) := by
  induction fuel generalizing queue scheduled plans with
  | zero =>
    have few := underway.few knows
    rw [underway.order, List.length_append, List.length_map] at few
    omega
  | succ fuel ih =>
    cases queue with
    | nil => exact .done
    | cons pending queue =>
      have listed : entryOf pending ∈ scheduled := by
        rw [underway.order]
        exact List.mem_append_right _ (List.mem_map_of_mem List.mem_cons_self)
      have inside : Knows definitions known (.named pending.1) :=
        fun ref reached => knows ref ((underway.explored _ listed).reaches.trans reached)
      have searched : Searched definitions leaf _ _ _ :=
        searched_sightings bounded inside pending.2
      rw [buildPlans]
      split
      · rename_i path unclear
        exact .unclear searched unclear
      · rename_i clear
        refine .next searched clear (ih (underway.next searched clear) ?_)
        rw [List.length_append, List.length_singleton]
        omega

end

/-! ## What planning answers -/

section

variable {definitions : Definitions} {root leaf : NamedRef} {known : List NamedRef} {names : Nat}
  {scheduled : List Entry} {plans : Plans} {entry : Entry}

/-- There is a plan for every entry that is explored. -/
theorem Underway.planned (made : Underway definitions root leaf [] scheduled plans)
    (explored : entry.Explored definitions root leaf) : ∃ routes, (entry, routes) ∈ plans := by
  have keys : plans.map Prod.fst = scheduled := by
    rw [made.order]
    simp
  have planned : ∀ entry ∈ scheduled, ∃ routes, (entry, routes) ∈ plans := by
    intro entry member
    rw [← keys] at member
    obtain ⟨⟨entry, routes⟩, plan, rfl⟩ := List.mem_map.mp member
    exact ⟨routes, plan⟩
  refine planned entry ?_
  induction explored with
  | refl => exact made.first
  | tail _ leads ih =>
    obtain ⟨route, meets, continues⟩ := leads
    obtain ⟨routes, plan⟩ := planned _ ih
    have listed := ((made.faithful _ plan).routes route).mpr meets
    exact made.closed _ plan route listed _ continues

/-- A plan that was made is live when routes lead on from it to one that meets the leaf. -/
theorem Underway.live_iff (made : Underway definitions root leaf [] scheduled plans)
    (explored : entry.Explored definitions root leaf) :
    Live plans entry ↔
      ∃ last, Relation.ReflTransGen (Entry.Leads definitions leaf) entry last ∧
        ∃ steps, last.Meets definitions leaf (some ⟨steps, .leaf⟩) := by
  constructor
  · intro live
    induction live with
    | @intro entry routes route plan member leads ih =>
      have meets := ((made.faithful _ plan).routes route).mp member
      cases target : route.goal with
      | leaf =>
        obtain ⟨steps, goal⟩ := route
        cases target
        exact ⟨entry, .refl, steps, meets⟩
      | tagged ref =>
        have continues : route.goal.entry? = some ⟨ref, false⟩ := by rw [target]; rfl
        have first : entry.Leads definitions leaf ⟨ref, false⟩ := ⟨route, meets, continues⟩
        obtain ⟨last, further, ends⟩ := ih _ continues (explored.tail first)
        exact ⟨last, .head first further, ends⟩
      | shaped ref ambiguous =>
        have continues : route.goal.entry? = some ⟨ref, ambiguous⟩ := by rw [target]; rfl
        have first : entry.Leads definitions leaf ⟨ref, ambiguous⟩ := ⟨route, meets, continues⟩
        obtain ⟨last, further, ends⟩ := ih _ continues (explored.tail first)
        exact ⟨last, .head first further, ends⟩
  · rintro ⟨last, further, steps, meets⟩
    induction further using Relation.ReflTransGen.head_induction_on with
    | refl =>
      obtain ⟨routes, plan⟩ := made.planned explored
      refine .intro plan (((made.faithful _ plan).routes _).mpr meets) (fun next continues => ?_)
      cases continues
    | head leads _ ih =>
      have live := ih (explored.tail leads)
      obtain ⟨route, meets, continues⟩ := leads
      obtain ⟨routes, plan⟩ := made.planned explored
      refine .intro plan (((made.faithful _ plan).routes route).mpr meets) (fun next leads => ?_)
      rw [continues] at leads
      cases leads
      exact live

/-- Planning from a root, with a bound for the names that it reaches, is planning without a
bound. -/
theorem builds_plans (bounded : known.length ≤ names)
    (knows : Knows definitions known (.named root)) :
    Builds definitions leaf [(root, none)] [⟨root, false⟩] []
      (buildPlans definitions leaf names (2 * names + 1) [(root, none)] [⟨root, false⟩] []) :=
  (Underway.initial definitions root leaf).builds knows bounded (by simp)

/-- A traversal between different names has the live ones of all plans that were made. -/
theorem plans_of_between {traversal : Traversal} (bounded : known.length ≤ names)
    (knows : Knows definitions known (.named root)) (other : root ≠ leaf)
    (compiled : between definitions names root leaf = .ok traversal) :
    ∃ scheduled plans, Underway definitions root leaf [] scheduled plans ∧
      traversal = ⟨root, leaf, live plans⟩ := by
  have outcome := (builds_plans bounded knows).outcome (Underway.initial definitions root leaf)
  rw [between, if_neg other] at compiled
  split at compiled
  · cases compiled
  · rename_i plans made
    obtain ⟨scheduled, complete⟩ := outcome.1 plans made
    simp only at compiled
    split at compiled
    · cases compiled
      exact ⟨scheduled, plans, complete, rfl⟩
    · cases compiled

/-- An entry that the table calls live is live. -/
theorem live_of_lookup (found : ((Traversal.live plans).lookup entry).isSome = true) :
    Live plans entry := by
  obtain ⟨⟨other, routes⟩, member, same⟩ := List.lookup_isSome_iff.mp found
  obtain rfl := eq_of_beq same
  obtain ⟨_, _, live, _⟩ := mem_live_iff.mp member
  exact live

/-- What planning answers: a leaf that cannot be told apart somewhere; else no plan that
meets the leaf; else a traversal. -/
theorem between_answers (bounded : known.length ≤ names)
    (knows : Knows definitions known (.named root)) (other : root ≠ leaf) :
    ((∃ entry : Entry, entry.Explored definitions root leaf ∧ entry.Meets definitions leaf none) ∧
      ∃ path, between definitions names root leaf =
        .error (.ambiguousTraversal root.name leaf.name path)) ∨
    (¬ (∃ entry : Entry, entry.Explored definitions root leaf ∧
        entry.Meets definitions leaf none) ∧
      ((¬ (∃ entry : Entry, entry.Explored definitions root leaf ∧
          ∃ steps, entry.Meets definitions leaf (some ⟨steps, .leaf⟩)) ∧
        between definitions names root leaf = .error (.unreachableLeaf root.name leaf.name)) ∨
      ((∃ entry : Entry, entry.Explored definitions root leaf ∧
          ∃ steps, entry.Meets definitions leaf (some ⟨steps, .leaf⟩)) ∧
        ∃ traversal, between definitions names root leaf = .ok traversal))) := by
  have outcome := (builds_plans bounded knows).outcome (Underway.initial definitions root leaf)
  rw [between, if_neg other]
  cases built : buildPlans definitions leaf names (2 * names + 1) [(root, none)]
    [⟨root, false⟩] [] with
  | error path => exact .inl ⟨outcome.2 path built, path, rfl⟩
  | ok plans =>
    obtain ⟨scheduled, complete⟩ := outcome.1 plans built
    refine .inr ⟨?_, ?_⟩
    · rintro ⟨entry, explored, unclear⟩
      obtain ⟨routes, plan⟩ := complete.planned explored
      exact (complete.faithful _ plan).clear unclear
    · have live := complete.live_iff .refl
      by_cases stays : ((Traversal.live plans).lookup ⟨root, false⟩).isSome = true
      · refine .inr ⟨live.mp (live_of_lookup stays), ?_⟩
        simp only [if_pos stays]
        exact ⟨_, rfl⟩
      · refine .inl ⟨fun reachable => stays (lookup_live_isSome (live.mpr reachable)), ?_⟩
        simp only [if_neg stays]

end

end Conform.Traversal
