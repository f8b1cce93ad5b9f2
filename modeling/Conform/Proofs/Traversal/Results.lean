import Conform.Proofs.Traversal.Placing

/-!
# Where results end up

A transform that is called once at a position, and nowhere above or below it, is called on what
the input holds there, and its answer ends up there. On the way up each container asks whether
the answer is the same as what it held: if it is, by content or as a scalar, the container stays
as it was, and with it what it held. So below the root an answer that shares the content of its
argument, or equals it as a scalar, leaves the argument in its place, with the tags and the
notation of the argument; every other answer is found exactly as it was given.
-/

namespace Conform

namespace Value.SameOutline

variable {value answer : Value}

/-- Values of the same outline have children at the same positions. -/
theorem exists_child? (outline : value.SameOutline answer) {step : Position} {child : Value}
    (found : answer.child? step = some child) : ∃ child', value.child? step = some child' := by
  cases outline with
  | scalar scalar => exact ⟨child, found⟩
  | array length =>
    cases step with
    | key key => cases found
    | index index =>
      have inside := (List.getElem?_eq_some_iff.mp found).1
      exact ⟨_, List.getElem?_eq_getElem (length ▸ inside)⟩
  | @object _ _ fields _ _ keys =>
    cases step with
    | index index => cases found
    | key key =>
      have listed : key ∈ Fields.keys fields :=
        keys ▸ Fields.mem_keys (Fields.mem_of_get? found)
      cases there : Fields.get? key fields with
      | none => exact absurd listed (Fields.get?_eq_none_iff.mp there)
      | some child' => exact ⟨child', there⟩

/-- Values with the same outline have distinct keys alike. -/
theorem keyed (outline : value.SameOutline answer) (keyed : value.Keyed) : answer.Keyed := by
  cases outline with
  | scalar scalar => exact keyed
  | array length => trivial
  | object keys =>
    rw [Value.Keyed, Fields.Distinct, keys]
    exact keyed

end Value.SameOutline

namespace Traversal

/-! ## The way to a place -/

/-- On the way to a place, that place included, the keys of objects are distinct. -/
def KeyedAlong (place : List Value.Position) (value : Value) : Prop :=
  ∀ front part, front <+: place → value.at? front = some part → part.Keyed

section

variable {transform : Transform} {made made' : List Call} {place position : List Value.Position}
  {value middle answer : Value} {call other : Call}

/-- Keys that are distinct throughout are so on the way to every place. -/
theorem keyedAlong_of_throughout (keyed : value.Throughout Value.Keyed) :
    KeyedAlong place value := by
  intro front part _ found
  exact (keyed.at? found).here

/-- Keys that are distinct on the way to a place are so at its start. -/
theorem KeyedAlong.here (keyed : KeyedAlong place value) : value.Keyed :=
  keyed [] value List.nil_prefix rfl

/-- Keys that are distinct on the way to a place are so from the child on. -/
theorem KeyedAlong.child {step : Value.Position} {child : Value}
    (keyed : KeyedAlong (step :: place) value) (entry : value.child? step = some child) :
    KeyedAlong place child :=
  fun front part inside found => keyed (step :: front) part (by simpa using inside)
    (Option.bind_eq_some_iff.mpr ⟨child, entry, found⟩)

/-- What goes along to a place has nothing there that was not there before. -/
theorem Alongside.exists_at? {front : List Value.Position} {part' : Value}
    (alongside : Alongside place value answer) (inside : front <+: place)
    (found : answer.at? front = some part') :
    ∃ part, value.at? front = some part ∧ part.SameOutline part' := by
  induction front generalizing place value answer with
  | nil =>
    cases found
    exact ⟨value, rfl, alongside.here⟩
  | cons step rest ih =>
    obtain ⟨child', entry', further⟩ := Option.bind_eq_some_iff.mp found
    obtain ⟨back, rfl⟩ := inside
    obtain ⟨child, entry⟩ := alongside.here.exists_child? entry'
    obtain ⟨child'', entry'', alongside'⟩ := alongside.child entry
    cases entry'.symm.trans entry''
    obtain ⟨part, held, outline⟩ := ih alongside' (List.prefix_append rest back) further
    exact ⟨part, Option.bind_eq_some_iff.mpr ⟨child, entry, held⟩, outline⟩

/-- Values alongside each other have distinct keys alike on the way. -/
theorem KeyedAlong.of_alongside (keyed : KeyedAlong place value)
    (alongside : Alongside place value answer) : KeyedAlong place answer := by
  intro front part' inside found
  obtain ⟨part, held, outline⟩ := alongside.exists_at? inside found
  exact outline.keyed (keyed front part inside held)

/-- A run whose calls are all apart from a place goes along to it. -/
theorem Framed.alongside (framed : Framed transform position made value answer)
    (apart : ∀ other ∈ made, Apart other.position (position ++ place)) :
    Alongside place value answer := by
  intro front part inside found
  have inside' := (List.prefix_append_right_inj position).mpr inside
  obtain ⟨part', found', carried⟩ := framed.carries front part found
    (fun call member above => absurd (above.1.trans inside') (apart call member).1)
  refine ⟨part', found', carried part.SameOutline (fun call member here => ?_)
    (fun old new outline _ known => known.trans outline) (.refl part)⟩
  exact absurd (here ▸ inside') (apart call member).1

/-- A run whose calls are all apart from a place leaves the part there as it is. -/
theorem Framed.unmoved (framed : Framed transform position made value answer)
    (apart : ∀ other ∈ made, Apart other.position (position ++ place)) {part : Value}
    (found : value.at? place = some part) : answer.at? place = some part := by
  obtain ⟨part', found', carried⟩ := framed.carries place part found
    (fun call member above => absurd above.1 (apart call member).1)
  rw [found', carried (· = part) (fun call member here => ?_) (fun old new _ stays known => ?_) rfl]
  · exact absurd (here ▸ List.prefix_rfl) (apart call member).1
  · rwa [stays (fun call member above => absurd above.1 (apart call member).2)]

end

/-! ## A call by itself -/

/-- A call stands alone: it is made once, and all others are apart from it. -/
def Lone (made : List Call) (call : Call) : Prop :=
  made.filter (fun other => !decide (Apart other.position call.position)) = [call]

section

variable {transform : Transform} {made made' : List Call} {place position : List Value.Position}
  {value middle answer : Value} {call other : Call}

/-- A call that all others are apart from stands alone. -/
theorem lone_of_split {before after : List Call}
    (apart : ∀ other ∈ before ++ after, Apart other.position call.position) :
    Lone (before ++ call :: after) call := by
  obtain ⟨early, late⟩ := List.forall_mem_append.mp apart
  have self : ¬ Apart call.position call.position := fun apart => apart.1 List.prefix_rfl
  rw [Lone, List.filter_append, List.filter_cons_of_pos (by simpa using self),
    List.filter_eq_nil_iff.mpr (by simpa using early),
    List.filter_eq_nil_iff.mpr (by simpa using late), List.nil_append]

/-- A call that stands alone is made. -/
theorem Lone.mem (lone : Lone made call) : call ∈ made :=
  List.mem_of_mem_filter (lone ▸ List.mem_singleton.mpr rfl : call ∈ made.filter _)

/-- A call that meets the one standing alone is that call. -/
theorem Lone.eq_of_mem (lone : Lone made call) (member : other ∈ made)
    (meets : ¬ Apart other.position call.position) : other = call := by
  have inside : other ∈ made.filter (fun other => !decide (Apart other.position call.position)) :=
    List.mem_filter.mpr ⟨member, by simpa using meets⟩
  rwa [lone, List.mem_singleton] at inside

/-- Of two runs one has made the call, and all calls of the other are apart from it. -/
theorem Lone.of_append (lone : Lone (made ++ made') call) :
    (Lone made call ∧ ∀ other ∈ made', Apart other.position call.position) ∨
      ((∀ other ∈ made, Apart other.position call.position) ∧ Lone made' call) := by
  rw [Lone, List.filter_append, List.append_eq_singleton_iff] at lone
  rcases lone with ⟨none, own⟩ | ⟨own, none⟩
  · exact .inr ⟨by simpa using List.filter_eq_nil_iff.mp none, own⟩
  · exact .inl ⟨own, by simpa using List.filter_eq_nil_iff.mp none⟩

/-- One of several branches has made the call. -/
theorem Lone.of_flatMap {branches : List Branch} (lone : Lone (branches.flatMap Branch.made) call) :
    ∃ branch ∈ branches, Lone branch.made call := by
  obtain ⟨branch, listed, member⟩ := List.mem_flatMap.mp lone.mem
  have part : branch.made.Sublist (branches.flatMap Branch.made) :=
    List.sublist_flatten_of_mem (List.mem_map_of_mem listed)
  have inside := part.filter (fun other => !decide (Apart other.position call.position))
  rw [show (branches.flatMap Branch.made).filter _ = [call] from lone] at inside
  have self : ¬ Apart call.position call.position := fun apart => apart.1 List.prefix_rfl
  refine ⟨branch, listed, ?_⟩
  rcases List.sublist_singleton.mp inside with none | own
  · exact absurd (List.filter_eq_nil_iff.mp none call member) (by simpa using self)
  · exact own

/-- What a container holds after a call: the argument when the answer is the same. -/
def Call.settled (call : Call) : Value :=
  if call.answer.same call.argument then call.argument else call.answer

/-- A call that stands alone in a run is called on what is at its place, and settles there; at the
position of the run itself its answer is that of the run. -/
def Lands (position : List Value.Position) (made : List Call) (value answer : Value) : Prop :=
  ∀ call place, Lone made call → call.position = position ++ place → KeyedAlong place value →
    value.at? place = some call.argument ∧
      answer.at? place = some (if place = [] then call.answer else call.settled)

/-- Without calls none lands. -/
theorem lands_still : Lands position [] value value :=
  fun _ _ lone => absurd lone.mem List.not_mem_nil

/-- A call by itself lands at its own position. -/
theorem lands_called (calls : List Call) :
    Lands position [⟨position, value, transform calls position value⟩] value
      (transform calls position value) := by
  intro call place lone here _
  obtain rfl := List.mem_singleton.mp lone.mem
  obtain rfl : place = [] := by simpa using here
  exact ⟨rfl, rfl⟩

/-- What has settled in one of two runs stays in the other. -/
theorem lands_next (framed : Framed transform position made value middle)
    (lands : Lands position made value middle)
    (framed' : Framed transform position made' middle answer)
    (lands' : Lands position made' middle answer) :
    Lands position (made ++ made') value answer := by
  intro call place lone here keyed
  rcases lone.of_append with ⟨own, apart⟩ | ⟨apart, own⟩
  · obtain ⟨held, settled⟩ := lands call place own here keyed
    exact ⟨held, framed'.unmoved (here ▸ apart) settled⟩
  · have alongside := framed.alongside (here ▸ apart)
    obtain ⟨held, settled⟩ := lands' call place own here (keyed.of_alongside alongside)
    obtain ⟨part, before, _⟩ := alongside.exists_at? List.prefix_rfl held
    have same := (framed.unmoved (here ▸ apart) before).symm.trans held
    exact ⟨before.trans same, settled⟩

/-- What has settled in a branch is found in the container. -/
theorem lands_branched {step : Step} {branches : List Branch} {result : Value}
    (stepped : Stepped step branches value result)
    (each : ∀ branch ∈ branches,
      Framed transform (position ++ [branch.step]) branch.made branch.child branch.answer ∧
        Lands (position ++ [branch.step]) branch.made branch.child branch.answer) :
    Lands position (branches.flatMap Branch.made) value result := by
  intro call place lone here keyed
  obtain ⟨branch, listed, own⟩ := lone.of_flatMap
  obtain ⟨framed, lands⟩ := each branch listed
  obtain ⟨rest, inside⟩ := framed.inside call own.mem
  obtain rfl : place = branch.step :: rest := by
    rw [here, List.append_assoc] at inside
    exact (List.append_cancel_left inside).symm
  obtain ⟨entry, entry'⟩ := stepped.placed keyed.here branch listed
  obtain ⟨held, settled⟩ := lands call rest own inside.symm (keyed.child entry)
  refine ⟨Option.bind_eq_some_iff.mpr ⟨_, entry, held⟩,
    Option.bind_eq_some_iff.mpr ⟨_, entry', ?_⟩⟩
  rw [if_neg (List.cons_ne_nil _ _), Branch.result]
  by_cases deeper : rest = []
  · subst deeper
    have same : branch.child = call.argument := Option.some.inj held
    have same' : branch.answer = call.answer := by simpa [Value.at?] using settled
    rw [same, same', Value.at?, Call.settled]
  · rw [if_neg deeper] at settled
    split
    · next shared =>
      -- No call was made at the child itself, so an answer that is the same is the child.
      have grown : Grown branch.child branch.answer := framed.grown (fun other member at_ => by
        have meets : ¬ Apart other.position call.position := fun apart =>
          apart.1 (at_ ▸ ⟨rest, inside⟩)
        obtain rfl := own.eq_of_mem member meets
        rw [at_] at inside
        exact absurd (List.append_right_eq_self.mp inside) deeper)
      rwa [grown.eq_of_same shared] at settled
    · exact settled

/-- Landing composes over the runs of a traversal. -/
theorem composes_lands (transform : Transform) : Composes transform
    (fun position made value answer =>
      Framed transform position made value answer ∧ Lands position made value answer) where
  still _ _ := ⟨.refl, lands_still⟩
  next first second :=
    ⟨first.1.trans second.1, lands_next first.1 first.2 second.1 second.2⟩
  called _ _ calls := ⟨framed_call calls, lands_called calls⟩
  branched stepped each :=
    ⟨framed_of_stepped stepped (fun branch listed => (each branch listed).1),
      lands_branched stepped each⟩

end

/-- **Results end up where they belong.** A call that is made once, with no other call above or
below it, is made on what the input holds at its position, and its answer is found there in the
result, exactly as it was given, unless it lies below the root and is the same as the argument:
then the argument is found there. -/
theorem map_places_answer {terms : Terms} {traversal : Traversal} {transform : Transform}
    {fuel : Nat} {origin : Identity} {value result : Value} {calls : List Call}
    (keyed : value.Throughout Value.Keyed)
    (mapped : traversal.map terms transform fuel origin value = .ok (.ok (result, calls)))
    {before after : List Call} {call : Call} (split : calls = before ++ call :: after)
    (alone : ∀ other ∈ before ++ after, Apart other.position call.position) :
    (∃ earlier, call.answer = transform earlier call.position call.argument) ∧
      value.at? call.position = some call.argument ∧
      result.at? call.position =
        some (if call.position ≠ [] ∧ call.answer.same call.argument = true then call.argument
          else call.answer) := by
  obtain ⟨made, called, framed, lands⟩ :=
    mapPlan_runs (composes_lands transform) _ _ _ _ _ _ _ _ (mapPlan_of_map mapped)
  obtain rfl : calls = made := called
  have lone : Lone calls call := split ▸ lone_of_split alone
  obtain ⟨held, found⟩ :=
    lands call call.position lone (List.nil_append _).symm (keyedAlong_of_throughout keyed)
  refine ⟨framed.answered call lone.mem, held, found.trans ?_⟩
  by_cases top : call.position = []
  · simp [top]
  · simp [top, Call.settled]

end Traversal

namespace Shapes

open Traversal

/-- A word that replaces the circle is found in its place. -/
theorem word_placed :
    let call : Call := ⟨[.key "members", .index 0], taggedCircle, .string "round"⟩
    taggedDrawing.Throughout Value.Keyed ∧
      circles.map ⟨definitions, Context.surroundings ⟨definitions, fun _ => none, .strict⟩, 10⟩
          (fun _ _ _ => .string "round") 10 (.run 3) taggedDrawing =
            .ok (.ok (replacedDrawing, [] ++ call :: [])) ∧
        replacedDrawing.at? call.position = some (.string "round") := by
  intro call
  have mapped : circles.map
      ⟨definitions, Context.surroundings ⟨definitions, fun _ => none, .strict⟩, 10⟩
      (fun _ _ _ => .string "round") 10 (.run 3) taggedDrawing =
        .ok (.ok (replacedDrawing, [] ++ call :: [])) := by
    with_unfolding_all rfl
  exact ⟨keyed_taggedDrawing, mapped,
    (map_places_answer keyed_taggedDrawing mapped rfl (by simp)).2.2⟩

/-- A circle that comes back with one more tag is the same circle, and the tag is lost. -/
theorem tag_of_answer_lost :
    between definitions 3 ⟨0, "Shape"⟩ ⟨1, "Circle"⟩ = .ok circles ∧
      taggedDrawing.Throughout Value.Keyed ∧
      ∃ call : Call, call.answer = call.argument.withTags [.named ⟨0, "Shape"⟩] ∧
        circles.map ⟨definitions, Context.surroundings ⟨definitions, fun _ => none, .strict⟩, 10⟩
            (fun _ _ part => part.withTags [.named ⟨0, "Shape"⟩]) 10 (.run 3) taggedDrawing =
          .ok (.ok (taggedDrawing, [call])) ∧
        taggedDrawing.at? call.position ≠ some call.answer := by
  refine ⟨circles_compiled, keyed_taggedDrawing, ⟨[.key "members", .index 0], taggedCircle,
    taggedCircle.withTags [.named ⟨0, "Shape"⟩]⟩, rfl, by with_unfolding_all rfl, ?_⟩
  intro same
  have held : taggedDrawing.at? [.key "members", .index 0] = some taggedCircle := rfl
  have more : (taggedCircle.withTags [.named ⟨0, "Shape"⟩]).tags.length = 2 := by
    with_unfolding_all rfl
  have equal : taggedCircle = taggedCircle.withTags [.named ⟨0, "Shape"⟩] :=
    Option.some.inj (held.symm.trans same)
  rw [← equal] at more
  cases more

end Shapes

end Conform
