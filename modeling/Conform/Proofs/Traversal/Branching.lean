import Conform.Proofs.Attempt.Answers
import Conform.Proofs.Traversal.Visits

/-!
# One step of a route

A step of a route runs what is left of the route at the children it leads to. The container
is made anew when the answer for some child does not share the child's content, and then
holds these answers; its tags, its keys and their order, and the number of its items are as
they were.
-/

namespace Conform

namespace Value

/-- Two values are containers of one kind with the same tags and the same keys in the same order,
or as many items; otherwise they are one scalar. -/
inductive SameOutline : Value → Value → Prop
  | scalar {value : Value} (scalar : value.tags? = none) : SameOutline value value
  | array {content content' : Identity} {items items' : List Value} {tags : Tags}
      (length : items'.length = items.length) :
      SameOutline (.array content items tags) (.array content' items' tags)
  | object {content content' : Identity} {fields fields' : Fields Value} {tags : Tags}
      (keys : Fields.keys fields' = Fields.keys fields) :
      SameOutline (.object content fields tags) (.object content' fields' tags)

section

variable {value middle answer : Value}

/-- A value has its own outline. -/
theorem SameOutline.refl (value : Value) : value.SameOutline value := by
  cases value <;> first | exact .scalar rfl | exact .array rfl | exact .object rfl

/-- Values with the outline of a third have the same outline. -/
theorem SameOutline.trans (first : value.SameOutline middle) (second : middle.SameOutline answer) :
    value.SameOutline answer := by
  cases first with
  | scalar scalar => exact second
  | array length =>
    cases second with
    | scalar scalar => cases scalar
    | array length' => exact .array (length'.trans length)
  | object keys =>
    cases second with
    | scalar scalar => cases scalar
    | object keys' => exact .object (keys'.trans keys)

/-- Sharing goes both ways. -/
theorem same_symm (shared : value.same answer = true) : answer.same value = true := by
  cases value <;> cases answer <;>
    simp_all [same, eq, Number.numericEq, Binary64.numericEq]

/-- What shares with what shares shares. -/
theorem same_trans (first : value.same middle = true) (second : middle.same answer = true) :
    value.same answer = true := by
  cases value <;> cases middle <;>
    first
    | exact second
    | exact absurd first Bool.false_ne_true
    | cases answer <;> simp_all [same, eq, Number.numericEq, Binary64.numericEq]

end

end Value

namespace Traversal

/-! ## Values made anew -/

/-- Count of the steps that made the content of a container. -/
def age : Value → Nat
  | .array content _ _ => content.depth
  | .object content _ _ => content.depth
  | _ => 0

/-- A value is what it was, or its content was made later. -/
def Grown (value answer : Value) : Prop :=
  answer = value ∨ age value < age answer

section

variable {value middle answer : Value}

/-- What has grown twice has grown. -/
theorem Grown.trans (first : Grown value middle) (second : Grown middle answer) :
    Grown value answer := by
  obtain rfl | later := first
  · exact second
  · obtain rfl | later' := second
    · exact .inr later
    · exact .inr (Nat.lt_trans later later')

/-- A value that was made later does not share the content of what it was made from. -/
theorem Grown.eq_of_same (grown : Grown value answer) (shared : answer.same value = true) :
    answer = value := by
  refine grown.resolve_right (fun later => ?_)
  cases value <;> cases answer <;> simp_all [age, Value.same, Value.eq]

end

/-! ## One step of a route -/

/-- The run of what is left of a route at one child of a container. -/
structure Branch where
  step : Value.Position
  child : Value
  answer : Value
  made : List Call

/-- What the container holds afterwards: the child stays when the answer shares its content. -/
def Branch.result (branch : Branch) : Value :=
  if branch.answer.same branch.child then branch.child else branch.answer

/-- Whether a branch makes its container anew. -/
def Branch.changes (branch : Branch) : Bool :=
  !branch.answer.same branch.child

/-- A step of a route leads from a container to a child. -/
def Step.LeadsTo : Step → Value.Position → Value → Prop
  | .property name, .key key, child => key = name ∧ child.isUndefined = false
  | .others declared, .key key, child => key ∉ declared ∧ child.isUndefined = false
  | .items, .index _, _ => True
  | _, _, _ => False

/-- What a step makes of a value by branches at the children it leads to. -/
structure Stepped (step : Step) (branches : List Branch) (value result : Value) : Prop where
  outline : value.SameOutline result
  grown : Grown value result
  still : (∀ branch ∈ branches, branch.answer.same branch.child = true) → result = value
  entered : ∀ position child, value.child? position = some child → step.LeadsTo position child →
    ∃ branch ∈ branches, branch.step = position ∧ branch.child = child ∧
      result.child? position = some branch.result
  passed : ∀ position child, value.child? position = some child →
    ¬ step.LeadsTo position child → result.child? position = some child
  placed : value.Keyed → ∀ branch ∈ branches, value.child? branch.step = some branch.child ∧
    result.child? branch.step = some branch.result

section

variable {runs : Branch → Prop} {calls calls' : List Call} {changed : Bool} {index : Nat}

/-- Mapping items branches at each of them. -/
theorem mapItems_branches {next : Nat → Value → List Call → Except Stop Progress}
    {items answers : List Value}
    (each : ∀ number child calls answer calls', next number child calls = .ok (answer, calls') →
      ∃ made, calls' = calls ++ made ∧ runs ⟨.index number, child, answer, made⟩)
    (ran : mapItems next index items calls = .ok (changed, answers, calls')) :
    ∃ branches : List Branch, calls' = calls ++ branches.flatMap Branch.made ∧
      (∀ branch ∈ branches, runs branch) ∧ changed = branches.any Branch.changes ∧
      (changed = false → answers = items) ∧ answers.length = items.length ∧
      (∀ number child, items[number]? = some child → ∃ branch ∈ branches,
        branch.step = .index (index + number) ∧ branch.child = child ∧
        answers[number]? = some branch.result) ∧
      ∀ branch ∈ branches, ∃ number, branch.step = .index (index + number) ∧
        items[number]? = some branch.child ∧ answers[number]? = some branch.result := by
  induction items generalizing index calls changed answers calls' with
  | nil =>
    cases ran
    exact ⟨[], by simp⟩
  | cons item rest ih =>
    rw [mapItems] at ran
    split at ran
    · cases ran
    · next answer before first =>
      obtain ⟨made, rfl, run⟩ := each _ _ _ _ _ first
      split at ran
      · cases ran
      · next changed' answers' after later =>
        obtain ⟨branches, rfl, runs', any, stays, length, parts, places⟩ := ih later
        -- the item stays or is replaced, as its branch has it
        have result : answers = (⟨.index index, item, answer, made⟩ : Branch).result :: answers' ∧
            changed = (!answer.same item || changed') ∧
            calls' = calls ++ made ++ branches.flatMap Branch.made := by
          rw [Branch.result]
          split at ran
          · next shared => cases ran; simp [shared]
          · next shared => cases ran; simp [shared]
        obtain ⟨rfl, rfl, rfl⟩ := result
        refine ⟨⟨.index index, item, answer, made⟩ :: branches, by simp,
          List.forall_mem_cons.mpr ⟨run, runs'⟩, ?_, fun same => ?_, by simp [length], ?_,
          List.forall_mem_cons.mpr ⟨⟨0, rfl, rfl, rfl⟩, fun branch member => ?_⟩⟩
        · rw [List.any_cons, ← any]
          rfl
        · obtain ⟨shared, unchanged⟩ := Bool.or_eq_false_iff.mp same
          rw [stays unchanged, Branch.result, if_pos (by simpa using shared)]
        · intro number child held
          cases number with
          | zero =>
            cases held
            exact ⟨_, List.mem_cons_self, rfl, rfl, rfl⟩
          | succ number =>
            obtain ⟨branch, member, here, same, found⟩ := parts number child held
            refine ⟨branch, List.mem_cons_of_mem _ member, ?_, same, found⟩
            rw [here, Nat.add_right_comm, Nat.add_assoc]
        · obtain ⟨number, here, held, found⟩ := places branch member
          refine ⟨number + 1, ?_, held, found⟩
          rw [here, Nat.add_right_comm, Nat.add_assoc]

/-- Mapping fields branches at each that is not declared and has a value. -/
theorem mapFields_branches {next : Nat → String → Value → List Call → Except Stop Progress}
    {declared : List String} {fields answers : Fields Value}
    (each : ∀ number key child calls answer calls',
      next number key child calls = .ok (answer, calls') →
      ∃ made, calls' = calls ++ made ∧ runs ⟨.key key, child, answer, made⟩)
    (ran : mapFields next declared index fields calls = .ok (changed, answers, calls')) :
    ∃ branches : List Branch, calls' = calls ++ branches.flatMap Branch.made ∧
      (∀ branch ∈ branches, runs branch) ∧ changed = branches.any Branch.changes ∧
      (changed = false → answers = fields) ∧ Fields.keys answers = Fields.keys fields ∧
      (∀ key child, Fields.get? key fields = some child →
        ((key ∉ declared ∧ child.isUndefined = false) → ∃ branch ∈ branches,
          branch.step = .key key ∧ branch.child = child ∧
          Fields.get? key answers = some branch.result) ∧
        (¬ (key ∉ declared ∧ child.isUndefined = false) →
          Fields.get? key answers = some child)) ∧
      ∀ branch ∈ branches, ∃ key, branch.step = .key key ∧ (key, branch.child) ∈ fields ∧
        (key, branch.result) ∈ answers := by
  induction fields generalizing index calls changed answers calls' with
  | nil =>
    cases ran
    exact ⟨[], by simp [Fields.get?]⟩
  | cons entry rest ih =>
    obtain ⟨key, child⟩ := entry
    rw [mapFields] at ran
    split at ran
    · next skipped =>
      have passed : ¬ (key ∉ declared ∧ child.isUndefined = false) := by
        rintro ⟨undeclared, there⟩
        simp [undeclared, there] at skipped
      split at ran
      · cases ran
      · next changed' answers' after later =>
        cases ran
        obtain ⟨branches, rfl, runs', any, stays, keys, parts, places⟩ := ih later
        refine ⟨branches, rfl, runs', any, fun same => by rw [stays same],
          congrArg (key :: ·) keys, fun name held found => ?_, fun branch member => ?_⟩
        · by_cases same : key = name
          · subst same
            obtain rfl : child = held := by simpa [Fields.get?] using found
            exact ⟨fun leads => absurd leads passed, fun _ => by simp [Fields.get?]⟩
          · simp only [Fields.get?, same, ↓reduceIte] at found ⊢
            exact parts name held found
        · obtain ⟨name, here, held, found⟩ := places branch member
          exact ⟨name, here, .tail _ held, .tail _ found⟩
    · next visited =>
      split at ran
      · cases ran
      · next answer before first =>
        obtain ⟨made, rfl, run⟩ := each _ _ _ _ _ _ first
        split at ran
        · cases ran
        · next changed' answers' after later =>
          obtain ⟨branches, rfl, runs', any, stays, keys, parts, places⟩ := ih later
          -- the field stays or is replaced, as its branch has it
          have result : answers =
                (key, (⟨.key key, child, answer, made⟩ : Branch).result) :: answers' ∧
              changed = (!answer.same child || changed') ∧
              calls' = calls ++ made ++ branches.flatMap Branch.made := by
            rw [Branch.result]
            split at ran
            · next shared => cases ran; simp [shared]
            · next shared => cases ran; simp [shared]
          obtain ⟨rfl, rfl, rfl⟩ := result
          refine ⟨⟨.key key, child, answer, made⟩ :: branches, by simp,
            List.forall_mem_cons.mpr ⟨run, runs'⟩, ?_, fun same => ?_,
            congrArg (key :: ·) keys, fun name held found => ?_,
            List.forall_mem_cons.mpr ⟨⟨key, rfl, .head _, .head _⟩, fun branch member => ?_⟩⟩
          · rw [List.any_cons, ← any]
            rfl
          · obtain ⟨shared, unchanged⟩ := Bool.or_eq_false_iff.mp same
            rw [stays unchanged, Branch.result, if_pos (by simpa using shared)]
          · by_cases same : key = name
            · subst same
              obtain rfl : child = held := by simpa [Fields.get?] using found
              refine ⟨fun leads => ⟨_, List.mem_cons_self, rfl, rfl, by simp [Fields.get?]⟩,
                fun passed => absurd ?_ passed⟩
              simpa [not_or] using visited
            · simp only [Fields.get?, same, ↓reduceIte] at found ⊢
              obtain ⟨leads, passed⟩ := parts name held found
              refine ⟨fun visits => ?_, passed⟩
              obtain ⟨branch, member, rest⟩ := leads visits
              exact ⟨branch, List.mem_cons_of_mem _ member, rest⟩
          · obtain ⟨name, here, held, found⟩ := places branch member
            exact ⟨name, here, .tail _ held, .tail _ found⟩

end

section

variable {content place : Identity} {fields answers : Fields Value} {items items' : List Value}
  {tags : Tags} {branches : List Branch}

/-- The child that is found under a key is the one looked up. -/
theorem lookup_of_get? {key : String} {child : Value}
    (found : Fields.get? key fields = some child) : Fields.lookup key fields = child := by
  rw [lookup_eq, found, Option.getD_some]

/-- An object that is revised has grown. -/
theorem grown_object (content place : Identity) (fields answers : Fields Value)
    (tags tags' : Tags) :
    Grown (.object content fields tags) (.object (.revised content place) answers tags') := by
  refine .inr ?_
  simp only [age, Identity.depth]
  omega

/-- An array that is revised has grown. -/
theorem grown_array (content place : Identity) (items items' : List Value) (tags tags' : Tags) :
    Grown (.array content items tags) (.array (.revised content place) items' tags') := by
  refine .inr ?_
  simp only [age, Identity.depth]
  omega

/-- Where a step leads to no child, the value stays. -/
theorem stepped_nil {step : Step} {value : Value}
    (missed : ∀ position child, value.child? position = some child →
      ¬ step.LeadsTo position child) : Stepped step [] value value where
  outline := .refl value
  grown := .inl rfl
  still _ := rfl
  entered position child held leads := absurd leads (missed position child held)
  passed _ _ held _ := held
  placed _ branch member := by cases member

/-- A branch at a property makes the object anew when it changes the property's value. -/
theorem stepped_property {name : String} {answer : Value} {made : List Call}
    (there : (Fields.lookup name fields).isUndefined = false) :
    Stepped (.property name) [⟨.key name, Fields.lookup name fields, answer, made⟩]
      (.object content fields tags)
      (if answer.same (Fields.lookup name fields) then .object content fields tags
        else .object (.revised content place) (Fields.insert name answer fields) tags) := by
  have listed : name ∈ Fields.keys fields := List.mem_map_of_mem (Fields.mem_of_lookup there)
  refine ⟨?_, ?_, fun shared => if_pos (shared _ (.head _)), fun position child held leads => ?_,
    fun position child held missed => ?_, fun keyed => List.forall_mem_singleton.mpr ?_⟩
  · split
    · exact .refl _
    · exact .object (by rw [Fields.keys_insert, if_pos listed])
  · split
    · exact .inl rfl
    · exact grown_object ..
  · cases position with
    | index index => cases held
    | key key =>
      obtain ⟨rfl, _⟩ := leads
      have same := lookup_of_get? (show Fields.get? key fields = some child from held)
      refine ⟨_, List.mem_singleton.mpr rfl, rfl, same, ?_⟩
      rw [Branch.result]
      split
      · rw [same]
        exact held
      · exact Fields.get?_insert_self _ _ _
  · cases position with
    | index index => cases held
    | key key =>
      have found : Fields.get? key fields = some child := held
      have other : key ≠ name := by
        rintro rfl
        rw [lookup_of_get? found] at there
        exact missed ⟨rfl, there⟩
      split
      · exact held
      · exact (Fields.get?_insert_of_ne _ _ other).trans found
  · have found : Fields.get? name fields = some (Fields.lookup name fields) :=
      Fields.get?_of_mem keyed (Fields.mem_of_lookup there)
    refine ⟨found, ?_⟩
    rw [Branch.result]
    split
    · exact found
    · exact Fields.get?_insert_self _ _ _

/-- Branches at the fields that are not declared make the object anew when one changes it. -/
theorem stepped_others {declared : List String} (keys : Fields.keys answers = Fields.keys fields)
    (stays : branches.any Branch.changes = false → answers = fields)
    (parts : ∀ key child, Fields.get? key fields = some child →
      ((key ∉ declared ∧ child.isUndefined = false) → ∃ branch ∈ branches,
        branch.step = .key key ∧ branch.child = child ∧
        Fields.get? key answers = some branch.result) ∧
      (¬ (key ∉ declared ∧ child.isUndefined = false) →
        Fields.get? key answers = some child))
    (places : ∀ branch ∈ branches, ∃ key, branch.step = .key key ∧ (key, branch.child) ∈ fields ∧
      (key, branch.result) ∈ answers) :
    Stepped (.others declared) branches (.object content fields tags)
      (if branches.any Branch.changes then .object (.revised content place) answers tags
        else .object content fields tags) := by
  have held : ∀ key, Value.child? (.key key)
      (if branches.any Branch.changes then .object (.revised content place) answers tags
        else .object content fields tags) = Fields.get? key answers := by
    intro key
    split
    · rfl
    · next unchanged => rw [stays (Bool.eq_false_iff.mpr unchanged)]; rfl
  refine ⟨?_, ?_, fun shared => ?_, fun position child found leads => ?_,
    fun position child found missed => ?_, fun keyed branch member => ?_⟩
  · split
    · exact .object keys
    · exact .refl _
  · split
    · exact grown_object ..
    · exact .inl rfl
  · rw [if_neg]
    simpa [Branch.changes] using shared
  · cases position with
    | index index => cases found
    | key key =>
      rw [held]
      exact (parts key child found).1 leads
  · cases position with
    | index index => cases found
    | key key =>
      rw [held]
      exact (parts key child found).2 missed
  · obtain ⟨key, here, before, after⟩ := places branch member
    have keyed' : Fields.Distinct answers := by
      rw [Fields.Distinct, keys]
      exact keyed
    rw [here, held]
    exact ⟨Fields.get?_of_mem keyed before, Fields.get?_of_mem keyed' after⟩

/-- Branches at the items make the array anew when one changes it. -/
theorem stepped_items (length : items'.length = items.length)
    (stays : branches.any Branch.changes = false → items' = items)
    (parts : ∀ index child, items[index]? = some child → ∃ branch ∈ branches,
      branch.step = .index index ∧ branch.child = child ∧
      items'[index]? = some branch.result)
    (places : ∀ branch ∈ branches, ∃ index, branch.step = .index index ∧
      items[index]? = some branch.child ∧ items'[index]? = some branch.result) :
    Stepped .items branches (.array content items tags)
      (if branches.any Branch.changes then .array (.revised content place) items' tags
        else .array content items tags) := by
  have held : ∀ index, Value.child? (.index index)
      (if branches.any Branch.changes then .array (.revised content place) items' tags
        else .array content items tags) = items'[index]? := by
    intro index
    split
    · rfl
    · next unchanged => rw [stays (Bool.eq_false_iff.mpr unchanged)]; rfl
  refine ⟨?_, ?_, fun shared => ?_, fun position child found leads => ?_,
    fun position child found missed => ?_, fun _ branch member => ?_⟩
  · split
    · exact .array length
    · exact .refl _
  · split
    · exact grown_array ..
    · exact .inl rfl
  · rw [if_neg]
    simpa [Branch.changes] using shared
  · cases position with
    | key key => cases found
    | index index =>
      rw [held]
      exact parts index child found
  · cases position with
    | key key => cases found
    | index index => exact absurd trivial missed
  · obtain ⟨index, here, before, after⟩ := places branch member
    rw [here, held]
    exact ⟨before, after⟩

end

section

variable {finish : Identity → List Value.Position → Value → List Call → Except Stop Progress}
  {rest : List Step} {origin content : Identity} {position : List Value.Position}
  {fields : Fields Value} {items : List Value} {tags : Tags} {calls : List Call}

/-- Steps through a property go on at its value and revise the object when that has changed. -/
theorem mapSteps_property (name : String) :
    mapSteps finish (.property name :: rest) origin position (.object content fields tags) calls =
      if (Fields.lookup name fields).isUndefined then .ok (.object content fields tags, calls)
      else
        (mapSteps finish rest (origin.part 0) (position ++ [.key name])
          (Fields.lookup name fields) calls).map (fun run =>
            (if run.1.same (Fields.lookup name fields) then .object content fields tags
              else .object (.revised content origin) (Fields.insert name run.1 fields) tags,
            run.2)) := by
  rw [mapSteps, lookup_eq]
  split
  · rfl
  · split
    · next run => rw [run]; rfl
    · next run =>
      rw [run, Except.map]
      split <;> rfl

/-- Steps through other fields go on at each of them and revise the object when one has changed. -/
theorem mapSteps_others (declared : List String) :
    mapSteps finish (.others declared :: rest) origin position (.object content fields tags) calls =
      (mapFields (fun index key child calls =>
        mapSteps finish rest (origin.part index) (position ++ [.key key]) child calls)
        declared 0 fields calls).map (fun run =>
          (if run.1 then .object (.revised content origin) run.2.1 tags
            else .object content fields tags, run.2.2)) := by
  rw [mapSteps]
  split <;> next run => rw [run]; rfl

/-- Steps through items go on at each of them and revise the array when one has changed. -/
theorem mapSteps_items :
    mapSteps finish (.items :: rest) origin position (.array content items tags) calls =
      (mapItems (fun index child calls =>
        mapSteps finish rest (origin.part index) (position ++ [.index index]) child calls)
        0 items calls).map (fun run =>
          (if run.1 then .array (.revised content origin) run.2.1 tags
            else .array content items tags, run.2.2)) := by
  rw [mapSteps]
  split <;> next run => rw [run]; rfl

/-- A step meets a container of its kind, or leads nowhere and leaves the value as it is. -/
theorem Step.meets
    (finish : Identity → List Value.Position → Value → List Call → Except Stop Progress)
    (step : Step) (rest : List Step) (value : Value) :
    (∃ name content fields tags, step = .property name ∧ value = .object content fields tags) ∨
    (∃ declared content fields tags,
      step = .others declared ∧ value = .object content fields tags) ∨
    (∃ content items tags, step = .items ∧ value = .array content items tags) ∨
    ((∀ position child, value.child? position = some child → ¬ step.LeadsTo position child) ∧
      ∀ origin position calls,
        mapSteps finish (step :: rest) origin position value calls = .ok (value, calls)) := by
  cases value with
  | object content fields tags =>
    cases step with
    | property name => exact .inl ⟨name, content, fields, tags, rfl, rfl⟩
    | others declared => exact .inr (.inl ⟨declared, content, fields, tags, rfl, rfl⟩)
    | items =>
      refine .inr (.inr (.inr ⟨fun position child held => ?_, fun _ _ _ => rfl⟩))
      cases position <;> first | cases held | exact not_false
  | array content items tags =>
    cases step with
    | items => exact .inr (.inr (.inl ⟨content, items, tags, rfl, rfl⟩))
    | _ =>
      refine .inr (.inr (.inr ⟨fun position child held => ?_, fun _ _ _ => rfl⟩))
      cases position <;> first | cases held | exact not_false
  | _ =>
    refine .inr (.inr (.inr ⟨fun position child held => ?_, fun _ _ _ => by cases step <;> rfl⟩))
    cases position <;> cases held

/-- A step of a route branches at the children it leads to. -/
theorem mapSteps_stepped (runs : Branch → Prop) {calls' : List Call} {step : Step}
    {value result : Value}
    (each : ∀ step' child origin calls answer calls',
      mapSteps finish rest origin (position ++ [step']) child calls = .ok (answer, calls') →
      ∃ made, calls' = calls ++ made ∧ runs ⟨step', child, answer, made⟩)
    (ran : mapSteps finish (step :: rest) origin position value calls = .ok (result, calls')) :
    ∃ branches : List Branch, calls' = calls ++ branches.flatMap Branch.made ∧
      (∀ branch ∈ branches, runs branch) ∧ Stepped step branches value result := by
  -- a step that leads nowhere from the value
  have nowhere : (∀ position child, value.child? position = some child →
        ¬ step.LeadsTo position child) → (value, calls) = (result, calls') →
      ∃ branches : List Branch, calls' = calls ++ branches.flatMap Branch.made ∧
        (∀ branch ∈ branches, runs branch) ∧ Stepped step branches value result := by
    rintro missed ⟨⟩
    exact ⟨[], by simp, by simp, stepped_nil missed⟩
  obtain ⟨name, content, fields, tags, rfl, rfl⟩ | ⟨declared, content, fields, tags, rfl, rfl⟩ |
    ⟨content, items, tags, rfl, rfl⟩ | ⟨missed, still⟩ := step.meets finish rest value
  · rw [mapSteps_property] at ran
    by_cases gone : (Fields.lookup name fields).isUndefined = true
    · rw [if_pos gone] at ran
      refine nowhere (fun position child held leads => ?_) (Except.ok.inj ran)
      match position, leads with
      | .key key, ⟨same, there⟩ =>
        subst same
        have found : Fields.get? key fields = some child := held
        rw [lookup_of_get? found, there] at gone
        cases gone
    · rw [if_neg gone] at ran
      rw [Bool.not_eq_true] at gone
      cases first : mapSteps finish rest (origin.part 0) (position ++ [.key name])
          (Fields.lookup name fields) calls with
      | error stop =>
        rw [first] at ran
        cases ran
      | ok progress =>
        obtain ⟨answer, after⟩ := progress
        rw [first] at ran
        cases ran
        obtain ⟨made, called, run⟩ := each _ _ _ _ _ _ first
        exact ⟨[⟨.key name, Fields.lookup name fields, answer, made⟩], by simpa using called,
          by simpa using run, stepped_property gone⟩
  · rw [mapSteps_others] at ran
    cases run : mapFields (fun index key child calls =>
        mapSteps finish rest (origin.part index) (position ++ [.key key]) child calls)
        declared 0 fields calls with
    | error stop =>
      rw [run] at ran
      cases ran
    | ok progress =>
      rw [run] at ran
      cases ran
      obtain ⟨branches, called, runs', any, stays, keys, parts, places⟩ :=
        mapFields_branches (fun number key child => each (.key key) child (origin.part number)) run
      rw [any] at stays ⊢
      exact ⟨branches, called, runs', stepped_others keys stays parts places⟩
  · rw [mapSteps_items] at ran
    cases run : mapItems (fun index child calls =>
        mapSteps finish rest (origin.part index) (position ++ [.index index]) child calls)
        0 items calls with
    | error stop =>
      rw [run] at ran
      cases ran
    | ok progress =>
      rw [run] at ran
      cases ran
      obtain ⟨branches, called, runs', any, stays, length, parts, places⟩ :=
        mapItems_branches (fun number child => each (.index number) child (origin.part number)) run
      rw [any] at stays ⊢
      simp only [Nat.zero_add] at parts places
      exact ⟨branches, called, runs', stepped_items length stays parts places⟩
  · rw [still] at ran
    exact nowhere missed (Except.ok.inj ran)

end

end Traversal

end Conform
