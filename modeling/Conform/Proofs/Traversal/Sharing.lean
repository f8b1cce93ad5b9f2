import Conform.Proofs.Traversal.Branching
import Conform.Proofs.Traversal.Once

/-!
# What a mapping leaves alone

A run at a position changes a value only through its calls, which are all at or below that
position. So a part above which no call was made stays at its place. What becomes of it is
what the calls at its place make of it; between them it is at most made anew with the same
outline, and it stays itself while the calls below share the contents of their arguments.
-/

namespace Conform

namespace Traversal

/-! ## Runs and their calls -/

/-- A call leaves its argument as it is. -/
def Call.Idle (call : Call) : Prop :=
  call.answer = call.argument

/-- A call answers with what shares the content of its argument. -/
def Call.Shares (call : Call) : Prop :=
  call.answer.same call.argument = true

/-- A place lies properly above another. -/
def Above (outer inner : List Value.Position) : Prop :=
  outer <+: inner ∧ outer ≠ inner

/-- What becomes of a part at a place: what holds of it goes on to hold when the calls at the
place carry it from their arguments to their answers, and when it does not depend on what a
container holds as far as that may change. -/
def Carried (made : List Call) (place : List Value.Position) (part part' : Value) : Prop :=
  ∀ holds : Value → Prop,
    (∀ call ∈ made, call.position = place → holds call.argument → holds call.answer) →
    (∀ old new : Value, old.SameOutline new →
      ((∀ call ∈ made, Above place call.position → call.Shares) → new = old) →
      holds old → holds new) →
    holds part → holds part'

/-- A run at a position changes a value only through its calls. -/
structure Framed (transform : Transform) (position : List Value.Position) (made : List Call)
    (value answer : Value) : Prop where
  inside : ∀ call ∈ made, position <+: call.position
  answered : ∀ call ∈ made, ∃ earlier,
    call.answer = transform earlier call.position call.argument
  grown : (∀ call ∈ made, call.position = position → call.Idle) → Grown value answer
  carries : ∀ place part, value.at? place = some part →
    (∀ call ∈ made, Above call.position (position ++ place) → call.Idle) →
    ∃ part', answer.at? place = some part' ∧ Carried made (position ++ place) part part'

section

variable {transform : Transform} {made made' : List Call} {place position : List Value.Position}
  {value middle answer part : Value}

/-- A place lies above all places inside it. -/
theorem above_append {step : Value.Position} {rest : List Value.Position} :
    Above place (place ++ step :: rest) :=
  ⟨List.prefix_append _ _, by simp⟩

/-- What lies properly inside a place is no prefix of it. -/
theorem Above.not_prefix (above : Above place position) : ¬ position <+: place :=
  fun inside => above.2 (above.1.eq_of_length_le inside.length_le)

/-- What lies above a place lies above all places inside that. -/
theorem Above.of_above_prefix {inner : List Value.Position} (above : Above place position)
    (inside : position <+: inner) : Above place inner := by
  refine ⟨above.1.trans inside, ?_⟩
  rintro rfl
  exact above.not_prefix inside

/-- A part that nothing happens to is carried. -/
theorem Carried.refl (made : List Call) (place : List Value.Position) (part : Value) :
    Carried made place part part :=
  fun _ _ _ held => held

/-- What some calls carry, more calls carry. -/
theorem Carried.mono (carried : Carried made place value answer)
    (subset : ∀ call ∈ made, call ∈ made') : Carried made' place value answer := by
  intro holds answers rebuilt
  refine carried holds (fun call member => answers call (subset _ member))
    (fun old new outline stays => rebuilt old new outline (fun shares => ?_))
  exact stays (fun call member => shares call (subset _ member))

/-- What is carried twice is carried. -/
theorem Carried.trans (first : Carried made place value middle)
    (second : Carried made place middle answer) : Carried made place value answer :=
  fun holds answers rebuilt held =>
    second holds answers rebuilt (first holds answers rebuilt held)

/-- A value that stays is framed by no calls. -/
theorem Framed.refl : Framed transform position [] value value where
  inside _ member := by cases member
  answered _ member := by cases member
  grown _ := .inl rfl
  carries place part held _ := ⟨part, held, .refl _ _ _⟩

/-- Two runs one after the other are a run. -/
theorem Framed.trans (first : Framed transform position made value middle)
    (second : Framed transform position made' middle answer) :
    Framed transform position (made ++ made') value answer where
  inside := List.forall_mem_append.mpr ⟨first.inside, second.inside⟩
  answered := List.forall_mem_append.mpr ⟨first.answered, second.answered⟩
  grown idle := by
    obtain ⟨idle, idle'⟩ := List.forall_mem_append.mp idle
    exact (first.grown idle).trans (second.grown idle')
  carries place part held idle := by
    obtain ⟨idle, idle'⟩ := List.forall_mem_append.mp idle
    obtain ⟨part', held', carried⟩ := first.carries place part held idle
    obtain ⟨part'', held'', carried'⟩ := second.carries place part' held' idle'
    exact ⟨part'', held'', (carried.mono (fun _ => List.mem_append_left _)).trans
      (carried'.mono (fun _ => List.mem_append_right _))⟩

/-- A call by itself is a run. -/
theorem framed_call (calls : List Call) :
    Framed transform position [⟨position, value, transform calls position value⟩] value
      (transform calls position value) where
  inside := List.forall_mem_singleton.mpr List.prefix_rfl
  answered := List.forall_mem_singleton.mpr ⟨calls, rfl⟩
  grown idle := .inl (idle _ (List.mem_singleton.mpr rfl) rfl)
  carries place part held idle := by
    cases place with
    | nil =>
      cases held
      refine ⟨_, rfl, fun holds answers _ held => ?_⟩
      exact answers _ (List.mem_singleton.mpr rfl) (List.append_nil _).symm held
    | cons step rest =>
      have same : transform calls position value = value :=
        idle _ (List.mem_singleton.mpr rfl) above_append
      rw [same]
      exact ⟨part, held, .refl _ _ _⟩

/-- Runs at the children that a step leads to are a run at their container. -/
theorem framed_of_stepped {step : Step} {branches : List Branch} {result : Value}
    (stepped : Stepped step branches value result)
    (each : ∀ branch ∈ branches, Framed transform (position ++ [branch.step]) branch.made
      branch.child branch.answer) :
    Framed transform position (branches.flatMap Branch.made) value result where
  inside call member := by
    obtain ⟨branch, listed, made⟩ := List.mem_flatMap.mp member
    exact (List.prefix_append _ _).trans ((each branch listed).inside call made)
  answered call member := by
    obtain ⟨branch, listed, made⟩ := List.mem_flatMap.mp member
    exact (each branch listed).answered call made
  grown _ := stepped.grown
  carries place part held idle := by
    have subset : ∀ branch ∈ branches, ∀ call ∈ branch.made,
        call ∈ branches.flatMap Branch.made :=
      fun branch listed call made => List.mem_flatMap.mpr ⟨branch, listed, made⟩
    cases place with
    | nil =>
      cases held
      rw [List.append_nil]
      refine ⟨result, rfl, fun holds _ rebuilt => rebuilt _ _ stepped.outline (fun shares => ?_)⟩
      -- every child shares its content with its answer
      refine stepped.still (fun branch listed => ?_)
      have framed := each branch listed
      have below : ∀ call ∈ branch.made, call.Shares := fun call made =>
        shares call (subset branch listed call made)
          (above_append.of_above_prefix (framed.inside call made))
      obtain ⟨_, found, carried⟩ := framed.carries [] _ rfl (fun call made above => by
        rw [List.append_nil] at above
        exact absurd (framed.inside call made) above.not_prefix)
      cases found
      refine carried (fun found => found.same branch.child = true)
        (fun call made _ => Value.same_trans (below call made))
        (fun old new _ stays shared => ?_) (same_self _)
      rwa [stays (fun call made _ => below call made)]
    | cons next rest =>
      obtain ⟨child, entry, further⟩ := Option.bind_eq_some_iff.mp held
      by_cases leads : step.LeadsTo next child
      · obtain ⟨branch, listed, rfl, rfl, found⟩ := stepped.entered next child entry leads
        have framed := each branch listed
        have idle' : ∀ call ∈ branch.made, Above call.position (position ++ branch.step :: rest) →
            call.Idle := fun call made => idle call (subset branch listed call made)
        rw [List.append_cons] at idle' ⊢
        obtain ⟨part', held', carried⟩ := framed.carries rest part further idle'
        by_cases shared : branch.answer.same branch.child = true
        · rw [Branch.result, if_pos shared] at found
          refine ⟨part, ?_, .refl _ _ _⟩
          exact Option.bind_eq_some_iff.mpr ⟨_, found, further⟩
        · rw [Branch.result, if_neg shared] at found
          refine ⟨part', ?_, carried.mono (subset branch listed)⟩
          exact Option.bind_eq_some_iff.mpr ⟨_, found, held'⟩
      · refine ⟨part, ?_, .refl _ _ _⟩
        exact Option.bind_eq_some_iff.mpr ⟨child, stepped.passed next child entry leads, further⟩

end

/-! ## Whole runs -/

/-- What holds of a value that stays, of runs one after the other, of a call by itself and of runs
at the children of a container. -/
structure Composes (transform : Transform)
    (holds : List Value.Position → List Call → Value → Value → Prop) : Prop where
  still : ∀ position value, holds position [] value value
  next : ∀ {position made made' value middle answer}, holds position made value middle →
    holds position made' middle answer → holds position (made ++ made') value answer
  called : ∀ position value calls,
    holds position [⟨position, value, transform calls position value⟩] value
      (transform calls position value)
  branched : ∀ {position : List Value.Position} {step : Step} {branches : List Branch}
    {value result : Value}, Stepped step branches value result →
    (∀ branch ∈ branches, holds (position ++ [branch.step]) branch.made branch.child
      branch.answer) → holds position (branches.flatMap Branch.made) value result

/-- Being framed composes over the runs of a traversal. -/
theorem composes_framed (transform : Transform) : Composes transform (Framed transform) where
  still _ _ := .refl
  next := .trans
  called _ _ := framed_call
  branched := framed_of_stepped

/-- Whatever calls came before, it holds of a run that ends. -/
def Runs (holds : List Value.Position → List Call → Value → Value → Prop)
    (position : List Value.Position) (value : Value)
    (run : List Call → Except Stop Progress) : Prop :=
  ∀ calls answer calls', run calls = .ok (answer, calls') →
    ∃ made, calls' = calls ++ made ∧ holds position made value answer

/-- Whatever calls came before, a run that ends has a frame. -/
abbrev Frames (transform : Transform) : List Value.Position → Value →
    (List Call → Except Stop Progress) → Prop :=
  Runs (Framed transform)

section

variable {terms : Terms} {leaf : NamedRef} {plans : Plans} {transform : Transform}
  {holds : List Value.Position → List Call → Value → Value → Prop}
  (composes : Composes transform holds)

include composes

/-- What holds of a value that stays holds of the run that does nothing. -/
theorem runs_still {position : List Value.Position} {value : Value} :
    Runs holds position value (fun calls => .ok (value, calls)) := by
  rintro calls answer calls' ⟨⟩
  exact ⟨[], (List.append_nil _).symm, composes.still position value⟩

/-- What holds of the runs at the ends of steps holds of taking the steps. -/
theorem mapSteps_runs
    {finish : Identity → List Value.Position → Value → List Call → Except Stop Progress}
    (ends : ∀ origin position value, Runs holds position value (finish origin position value))
    (steps : List Step) (origin : Identity) (position : List Value.Position) (value : Value) :
    Runs holds position value (mapSteps finish steps origin position value) := by
  induction steps generalizing origin position value with
  | nil => exact ends origin position value
  | cons step rest ih =>
    intro calls answer calls' ran
    obtain ⟨branches, called, each, stepped⟩ := mapSteps_stepped
      (fun branch => holds (position ++ [branch.step]) branch.made branch.child branch.answer)
      (fun step' child origin => ih origin (position ++ [step']) child) ran
    exact ⟨_, called, composes.branched stepped each⟩

/-- What holds of following the next plan holds of the end of a route. -/
theorem mapGoal_runs
    {enter : Entry → Identity → List Value.Position → Value → List Call → Except Stop Progress}
    (enters : ∀ entry origin position value,
      Runs holds position value (enter entry origin position value))
    (goal : Goal) (origin : Identity) (position : List Value.Position) (value : Value) :
    Runs holds position value
      (mapGoal terms leaf transform enter goal origin position value) := by
  intro calls answer calls' ran
  cases goal with
  | leaf =>
    rw [mapGoal] at ran
    split at ran
    · cases ran
    · split at ran
      · cases ran
        exact ⟨_, rfl, composes.called position value calls⟩
      · exact runs_still composes calls answer calls' ran
  | tagged ref =>
    rw [mapGoal] at ran
    split at ran
    · cases ran
    · exact enters ⟨ref, false⟩ origin position value calls answer calls' ran
    · exact runs_still composes calls answer calls' ran
  | shaped ref ambiguous =>
    exact enters ⟨ref, ambiguous⟩ origin position value calls answer calls' ran

/-- What holds of each route holds of routes one after the other. -/
theorem mapRoutes_runs
    {finish : Goal → Identity → List Value.Position → Value → List Call → Except Stop Progress}
    (ends : ∀ goal origin position value,
      Runs holds position value (finish goal origin position value))
    (index : Nat) (routes : List Route) (origin : Identity) (position : List Value.Position)
    (value : Value) :
    Runs holds position value (mapRoutes finish index routes origin position value) := by
  induction routes generalizing index value with
  | nil => exact runs_still composes
  | cons route rest ih =>
    intro calls answer calls' ran
    rw [mapRoutes] at ran
    split at ran
    · cases ran
    · next middle between first =>
      obtain ⟨made, rfl, run⟩ :=
        mapSteps_runs composes (ends route.goal) route.steps _ position value _ _ _ first
      obtain ⟨made', rfl, run'⟩ := ih (index + 1) middle _ _ _ ran
      exact ⟨made ++ made', List.append_assoc _ _ _, composes.next run run'⟩

/-- It holds of following a plan. -/
theorem mapPlan_runs (fuel : Nat) (entry : Entry) (origin : Identity)
    (position : List Value.Position) (value : Value) :
    Runs holds position value
      (mapPlan terms leaf plans transform fuel entry origin position value) := by
  induction fuel generalizing entry origin position value with
  | zero =>
    intro calls answer calls' ran
    cases ran
  | succ fuel ih =>
    intro calls answer calls' ran
    rw [mapPlan] at ran
    split at ran
    · exact runs_still composes calls answer calls' ran
    · exact mapRoutes_runs composes (mapGoal_runs composes ih) 0 _ origin position value calls
        answer
        calls' ran

end

section

variable {terms : Terms} {leaf : NamedRef} {plans : Plans} {transform : Transform}

/-- Following a plan has a frame. -/
theorem mapPlan_frames (fuel : Nat) (entry : Entry) (origin : Identity)
    (position : List Value.Position) (value : Value) :
    Frames transform position value
      (mapPlan terms leaf plans transform fuel entry origin position value) :=
  mapPlan_runs (composes_framed transform) fuel entry origin position value

end

/-- At each place above which no call was made a mapping keeps a part: one that shares the content
of the input's when every call at or below the place shared the content of its argument, and
one of the same outline when no call was made there. -/
theorem map_shares {terms : Terms} {traversal : Traversal} {transform : Transform} {fuel : Nat}
    {origin : Identity} {value result : Value} {calls : List Call}
    (mapped : traversal.map terms transform fuel origin value = .ok (.ok (result, calls)))
    {place : List Value.Position} {part : Value} (held : value.at? place = some part)
    (free : ∀ call ∈ calls, ¬ Above call.position place) :
    ∃ part', result.at? place = some part' ∧
      ((∀ call ∈ calls, place <+: call.position → call.Shares) → part'.same part = true) ∧
      ((∀ call ∈ calls, call.position ≠ place) → part.SameOutline part') := by
  obtain ⟨made, called, framed⟩ := mapPlan_frames _ _ _ _ _ _ _ _ (mapPlan_of_map mapped)
  obtain rfl : calls = made := called
  have idle : ∀ call ∈ calls, Above call.position ([] ++ place) → call.Idle :=
    fun call member above => absurd above (free call member)
  obtain ⟨part', held', carried⟩ := framed.carries place part held idle
  refine ⟨part', held', fun shares => ?_, fun apart => ?_⟩
  · refine carried (fun found => found.same part = true)
      (fun call member here => ?_) (fun old new _ stays shared => ?_) (same_self part)
    · exact Value.same_trans (shares call member (here ▸ List.prefix_rfl))
    · rwa [stays (fun call member above => shares call member above.1)]
  · exact carried part.SameOutline (fun call member here => absurd here (apart call member))
      (fun old new outline _ known => known.trans outline) (.refl part)

end Traversal

namespace Shapes

open Traversal

/-- The drawing with the circle replaced by a word. -/
def replacedDrawing : Value :=
  .object (.revised (.run 0) (.part (.part (.run 3) 1) 0))
    [("kind", .string "group"),
      ("members", .array (.revised (.run 1) (.part (.part (.part (.run 3) 1) 0) 0))
        [.string "round"] [])]
    [.named ⟨2, "Group"⟩, .named ⟨0, "Shape"⟩]

/-- The members of the drawing stay a list of one when the circle is replaced. -/
theorem members_stay_alike :
    let made : List Call := [⟨[.key "members", .index 0], taggedCircle, .string "round"⟩]
    circles.map ⟨definitions, Context.surroundings ⟨definitions, fun _ => none, .strict⟩, 10⟩
        (fun _ _ _ => .string "round") 10 (.run 3) taggedDrawing =
          .ok (.ok (replacedDrawing, made)) ∧
      taggedDrawing.at? [.key "members"] = some (.array (.run 1) [taggedCircle] []) ∧
      (∀ call ∈ made, ¬ Above call.position [.key "members"]) ∧
      ∃ part', replacedDrawing.at? [.key "members"] = some part' ∧
        ((∀ call ∈ made, [.key "members"] <+: call.position → call.Shares) →
          part'.same (.array (.run 1) [taggedCircle] []) = true) ∧
        ((∀ call ∈ made, call.position ≠ [.key "members"]) →
          (Value.array (.run 1) [taggedCircle] []).SameOutline part') := by
  intro made
  have mapped : circles.map
      ⟨definitions, Context.surroundings ⟨definitions, fun _ => none, .strict⟩, 10⟩
      (fun _ _ _ => .string "round") 10 (.run 3) taggedDrawing =
        .ok (.ok (replacedDrawing, made)) := by
    with_unfolding_all rfl
  have held : taggedDrawing.at? [.key "members"] = some (.array (.run 1) [taggedCircle] []) := rfl
  have free : ∀ call ∈ made, ¬ Above call.position [.key "members"] := by
    simp [made, Above]
  exact ⟨mapped, held, free, map_shares mapped held free⟩

end Shapes

end Conform
