import Conform.Proofs.Revalidation.Clear
import Conform.Proofs.Revalidation.Swept

/-!
# Intersections are conjunctions

An intersection hands each component what the one before answered. Under strict options that
agrees with the value. A schema without unions that accepts a value accepts every value that
agrees with it: its attempts end there, since they make the calls that they made before, and only
several matching options could stand in the way. So an intersection of such schemas accepts what
each of them accepts on its own, in any order. What it answers is the value, swept wherever one
of the components judges objects, and this does not depend on the order either.
-/

namespace Conform

namespace Schema

/-- A node that is no union leaves no union undecided. -/
theorem Unionless.decisive {format : String → Option Validator} {node : Schema}
    (unionless : node.Unionless format) (definitions : Definitions) :
    node.Decisive definitions := by
  cases node with
  | union number choices => exact absurd rfl (unionless.single number choices)
  | _ => exact trivial

end Schema

/-- A value of distinct keys that agrees with the value. -/
structure Value.Near (value item : Value) : Prop where
  agrees : value.Agrees item
  keyed : item.Throughout Value.Keyed

/-- A value is near itself. -/
theorem Value.Near.refl {value : Value} (keyed : value.Throughout Value.Keyed) : value.Near value :=
  ⟨.refl value, keyed⟩

/-- What restates a value near another is near it. -/
theorem Value.Near.restated {value item answer : Value} (near : value.Near item)
    (restates : item.Restates answer) : value.Near answer :=
  ⟨near.agrees.trans restates.agrees, restates.keyed⟩

/-- What judges a field of an accepted object accepts it. -/
theorem Validator.FieldsStep.accepted_at {judges : Schema → Value → Verdict → Prop} {drop : Bool}
    {properties : List (Property Schema)} {additional : Additional Schema}
    {fields answers : Fields Value} {key : String} {body : Schema}
    (step : FieldsStep judges false drop properties additional fields answers)
    (judged : Schema.bodyAt? properties additional key = some body)
    (there : (fields.lookup key).isUndefined = false) :
    ∃ answer, judges body (fields.lookup key) (.accepted answer) := by
  rw [Schema.bodyAt?] at judged
  split at judged
  · next property found =>
    obtain rfl := Option.some.inj judged
    obtain rfl : property.name = key := by simpa using List.find?_some found
    obtain ⟨answer, accepted, _⟩ := step.mem_of_read (List.mem_of_find?_eq_some found)
      (by rwa [readKey_false])
    rw [readKey_false] at accepted
    exact ⟨answer, accepted⟩
  · next unfound =>
    have untaken : isTaken false properties key = false := by
      simpa [isTaken] using List.find?_eq_none.mp unfound
    obtain ⟨_, _, _, _, others⟩ := step
    have among := mem_otherFields.mpr ⟨Fields.mem_of_lookup there, untaken, there⟩
    cases additional with
    | each other =>
      obtain rfl := Option.some.inj judged
      obtain ⟨_, _, _, accepted⟩ := forall₂_mem others among
      exact ⟨_, accepted⟩
    | _ => cases judged

namespace Context

variable {context : Context} {schema : Schema} {node : Nat} {value answer item : Value}

/-! ## Attempts end at values that agree with an accepted one -/

/-- A schema settles when what judges in its place does. -/
theorem SettlesOn.of_shape {admitted : Value → Prop}
    (settles : context.SettlesOn admitted (context.shape schema)) :
    context.SettlesOn admitted schema := by
  cases schema with
  | named ref =>
    rw [shape] at settles
    split at settles
    · exact .named settles
    · exact settles
  | _ => exact settles

/-- Components that settle near a value do so one after another, as their answers stay near. -/
theorem SettlesOn.near_intersection {components : List Schema}
    (strict : context.settings = .strict)
    (sound : ∀ component ∈ components, context.Sound component)
    (each : ∀ component ∈ components, context.SettlesOn value.Near component) (node : Nat) :
    context.SettlesOn value.Near (.intersection node components) := by
  refine .intersection each (fun component member supply item answer near judged => ?_) node
  exact near.restated (Supply.answer_restates strict (sound component member) near.keyed judged)

/-- An array settles near a list when its items settle near each of the items. -/
theorem SettlesOn.near_array (lone : context.settings.allowConvertForArrayType = false)
    {items : Schema} {least most : Option Nat} {content : Identity} {list : List Value}
    {tags : Tags}
    (each : ∀ item ∈ list, context.SettlesOn item.Near items) :
    context.SettlesOn (Value.array content list tags).Near (.array node items least most) := by
  refine (SettlesOn.of_members list each).array (fun value list' near found item' member => ?_) _ _
  obtain ⟨content', tags', rfl⟩ := Validator.itemsOf?_eq_some lone found
  cases found
  obtain ⟨agrees, keyed⟩ := near
  cases agrees with
  | array lengths each =>
    obtain ⟨index, inside, rfl⟩ := List.getElem_of_mem member
    exact ⟨list[index], List.getElem_mem _, each index (lengths ▸ inside) inside, keyed.item member⟩

/-- An object settles near fields when what judges each field settles near that field. -/
theorem SettlesOn.near_object (inward : context.settings.convertFromNetwork = false)
    {properties : List (Property Schema)} {additional : Additional Schema} {content : Identity}
    {fields : Fields Value} {tags : Tags} (names : (Property.names properties).Nodup)
    (each : ∀ key body, Schema.bodyAt? properties additional key = some body →
      (fields.lookup key).isUndefined = false → context.SettlesOn (fields.lookup key).Near body) :
    context.SettlesOn (Value.object content fields tags).Near
      (.object node properties additional) := by
  have settles : ∀ body ∈ (Schema.object node properties additional).contents,
      context.SettlesOn (fun item => ∃ key ∈ fields.keys,
        (Schema.bodyAt? properties additional key = some body ∧
          (fields.lookup key).isUndefined = false) ∧ (fields.lookup key).Near item) body := by
    refine fun body _ => .of_members _ (fun key _ => ?_)
    by_cases judged : Schema.bodyAt? properties additional key = some body ∧
      (fields.lookup key).isUndefined = false
    · exact (each key body judged.1 judged.2).imp (fun item near => near.2)
    · exact ⟨0, fun _ _ _ _ _ _ _ _ near => absurd near.1 judged⟩
  -- a field of an agreeing object is near the field of the same key
  have held : ∀ content' (fields' : Fields Value) tags',
      (Value.object content fields tags).Near (.object content' fields' tags') → ∀ key body,
      Schema.bodyAt? properties additional key = some body →
      (fields'.lookup key).isUndefined = false → ∃ key' ∈ fields.keys,
        (Schema.bodyAt? properties additional key' = some body ∧
          (fields.lookup key').isUndefined = false) ∧
          (fields.lookup key').Near (fields'.lookup key) := by
    intro content' fields' tags' near key body judged there'
    have agrees : (fields.lookup key).Agrees (fields'.lookup key) := near.agrees.field key
    have there := agrees.isUndefined_eq.trans there'
    exact ⟨key, Fields.mem_keys (Fields.mem_of_lookup there), ⟨judged, there⟩, agrees,
      near.keyed.field (Fields.mem_of_lookup there')⟩
  refine SettlesOn.object settles ?_ ?_
  · intro content' fields' tags' near tag property listed key there
    refine held content' fields' tags' near key property.body ?_ there
    rw [show key = property.name by simp [key, inward], Schema.bodyAt?_declared names listed]
  · intro content' fields' tags' near tag body typed entry among
    rw [inward, Bool.false_and] at among
    obtain ⟨member, untaken, there⟩ := Validator.mem_otherFields.mp among
    have distinct : Fields.Distinct fields' := near.keyed.here
    have same := Fields.lookup_of_mem distinct member
    rw [← same] at there ⊢
    refine held content' fields' tags' near entry.1 body ?_ there
    rw [Schema.bodyAt?_other (by simpa [Validator.isTaken] using untaken)]
    cases additional with
    | each other =>
      obtain rfl := List.mem_singleton.mp typed
      rfl
    | _ => cases typed

/-- Where a schema without unions accepts a value, attempts end at every value that agrees. No
name needs to be grounded, as the calls are those that were made for the accepted value. -/
theorem settles_near_accepted (strict : context.settings = .strict)
    (unionless : schema.Throughout context.definitions (Schema.Unionless context.format))
    (keyed : value.Throughout Value.Keyed)
    (judged : context.Judges schema value (.accepted answer)) :
    context.SettlesOn value.Near schema := by
  have faithful : context.settings.Faithful := strict ▸ Options.strict_faithful
  obtain ⟨_, inward, lone, _⟩ := faithful
  have sound := sound_of_unionless unionless
  revert keyed
  refine accepted_induction (motive := fun schema value _ =>
    value.Throughout Value.Keyed → context.SettlesOn value.Near schema) ?_ sound unionless judged
  clear unionless sound judged
  intro schema value answer unionless step keyed
  cases step with
  | leaf leaf judged => exact .leaf leaf unionless.here.wellFormed.knownFormats _
  | @items node items least most list answers place shape found count judged =>
    obtain ⟨content, tags, rfl⟩ := Validator.itemsOf?_eq_some lone found
    cases found
    refine .of_shape (shape ▸ .near_array lone (fun item member => ?_))
    obtain ⟨answer, _, _, _, settles⟩ := forall₂_mem judged member
    exact settles answer rfl (keyed.item member)
  | @fields node properties additional content fields answers tags place shape object judged =>
    subst object
    have names : (context.shape schema).DistinctNames :=
      (unionless.reached (reaches_shape context schema)).here.wellFormed.distinctNames
    rw [shape] at names
    rw [inward, Bool.false_and] at judged
    refine .of_shape (shape ▸ .near_object inward names (fun key body listed there => ?_))
    obtain ⟨answer, _, _, settles⟩ := judged.accepted_at listed there
    exact settles answer rfl (keyed.field (Fields.mem_of_lookup there))
  | union shape judged => exact absurd shape (unionless.here.single _ _)
  | @intersection node components _ shape judged =>
    subst shape
    have sound : ∀ component ∈ components, context.Sound component :=
      fun component member => sound_of_unionless (unionless.facet member)
    -- a component accepted what is near the value, so it settles near the value as well
    refine .near_intersection strict sound (fun component member => ?_) node
    obtain ⟨item, answer, near, _, _, settles⟩ := judged.each (Value.Near.refl keyed)
      (fun component member item answer near ⟨_, accepted, _⟩ =>
        near.restated (answer_restates strict (sound component member) near.keyed accepted))
      component member
    exact (settles answer rfl near.keyed).imp (fun other near' =>
      ⟨near.agrees.symm.trans near'.agrees, near'.keyed⟩)
  | named shape other judged tagged =>
    obtain ⟨first, rfl, rfl⟩ := accepted_of_map tagged
    subst shape
    exact .named (judged.2.2 first rfl keyed)

/-! ## Agreeing values are accepted together -/

/-- With some fuel on, every attempt accepts the value. -/
def Accepts (context : Context) (schema : Schema) (value : Value) : Prop :=
  ∃ bound, ∀ fuel, bound ≤ fuel → ∀ place, ∃ answer,
    context.attempt fuel schema place value = .ok (.accepted answer)

/-- What a schema accepts, it judges with an answer. -/
theorem Accepts.judged (accepts : context.Accepts schema value) :
    ∃ answer, context.Judges schema value (.accepted answer) := by
  obtain ⟨bound, accepted⟩ := accepts
  obtain ⟨answer, ended⟩ := accepted bound (Nat.le_refl bound) (.run 0)
  exact ⟨answer, bound, .run 0, ended⟩

/-- Where attempts end and none refuses, all accept. -/
theorem SettlesOn.accepts {admitted : Value → Prop} (settles : context.SettlesOn admitted schema)
    (held : admitted value)
    (never : ∀ violations, ¬ context.Judges schema value (.rejected violations)) :
    context.Accepts schema value := by
  obtain ⟨bound, ends⟩ := settles.ends
  refine ⟨bound, fun fuel enough place => ?_⟩
  obtain ⟨verdict, ended⟩ := ends fuel enough place value held
  cases verdict with
  | accepted answer => exact ⟨answer, ended⟩
  | rejected violations => exact absurd ⟨fuel, place, ended⟩ (never violations)

/-- A schema without unions does not refuse what agrees with a value that it accepts. -/
theorem not_refused_near (strict : context.settings = .strict)
    (unionless : schema.Throughout context.definitions (Schema.Unionless context.format))
    (keyed : value.Throughout Value.Keyed) (judged : context.Judges schema value (.accepted answer))
    (near : value.Near item) (violations : List Violation) :
    ¬ context.Judges schema item (.rejected violations) := by
  intro refused
  have sound := sound_of_unionless unionless
  have clear := judged_clear sound (unionless.imp (fun _ node => node.decisive _)) refused
  exact clear violations rfl
    (refused_ambiguously strict sound keyed near.keyed near.agrees judged refused)

/-- A schema without unions accepts what agrees with a value that it accepts. -/
theorem accepts_near (strict : context.settings = .strict)
    (unionless : schema.Throughout context.definitions (Schema.Unionless context.format))
    (keyed : value.Throughout Value.Keyed) (judged : context.Judges schema value (.accepted answer))
    (near : value.Near item) : context.Accepts schema item :=
  (settles_near_accepted strict unionless keyed judged).accepts near
    (not_refused_near strict unionless keyed judged near)

/-- What some attempt accepts, all accept that have enough fuel. -/
theorem accepts_iff_judges (strict : context.settings = .strict)
    (unionless : schema.Throughout context.definitions (Schema.Unionless context.format))
    (keyed : value.Throughout Value.Keyed) : context.Accepts schema value ↔
      ∃ answer, context.Judges schema value (.accepted answer) :=
  ⟨Accepts.judged, fun ⟨_, judged⟩ => accepts_near strict unionless keyed judged (.refl keyed)⟩

/-! ## Intersections -/

/-- An intersection of components without unions has no unions. -/
theorem unionless_intersection {components : List Schema} (unionless : ∀ component ∈ components,
      component.Throughout context.definitions (Schema.Unionless context.format)) (node : Nat) :
    (Schema.intersection node components).Throughout context.definitions
      (Schema.Unionless context.format) := by
  refine Schema.throughout_of_parts ⟨⟨trivial, trivial⟩, nofun⟩ (fun part member => ?_)
  rcases List.mem_append.mp member with facet | content
  · exact unionless part facet
  · cases content

section

variable {components : List Schema} (strict : context.settings = .strict)
  (unionless : ∀ component ∈ components,
    component.Throughout context.definitions (Schema.Unionless context.format))
  (keyed : value.Throughout Value.Keyed)

include strict unionless keyed

/-- An intersection of schemas without unions accepts what all of them accept. -/
theorem accepts_intersection_iff (node : Nat) :
    context.Accepts (.intersection node components) value ↔
      ∀ component ∈ components, context.Accepts component value := by
  have sound : ∀ component ∈ components, context.Sound component :=
    fun component member => sound_of_unionless (unionless component member)
  have whole : context.Sound (.intersection node components) :=
    sound_of_unionless (unionless_intersection unionless node)
  -- what a component sees is near the value
  have kept : ∀ component ∈ components, ∀ item answer, value.Near item →
      context.Judges component item (.accepted answer) → value.Near answer :=
    fun component member item answer near judged =>
      near.restated (answer_restates strict (sound component member) near.keyed judged)
  constructor
  · intro accepts component member
    obtain ⟨answer, judged⟩ := accepts.judged
    obtain ⟨item, _, near, accepted⟩ :=
      (judged_step whole judged).by_components.each (.refl keyed) kept component member
    exact accepts_near strict (unionless component member) near.keyed accepted
      ⟨near.agrees.symm, keyed⟩
  · intro each
    refine (SettlesOn.near_intersection strict sound (fun component member => ?_) node).accepts
      (.refl keyed) (fun violations refused => ?_)
    · obtain ⟨answer, judged⟩ := (each component member).judged
      exact settles_near_accepted strict (unionless component member) keyed judged
    · obtain ⟨component, member, item, causes, _, near, refused, _⟩ :=
        (judged_step whole refused).by_components.refused_at (.refl keyed) kept
      obtain ⟨answer, judged⟩ := (each component member).judged
      exact not_refused_near strict (unionless component member) keyed judged near causes refused

/-- In another order the components answer with equal data. -/
theorem intersection_answers_eq {components' : List Schema} (order : components'.Perm components)
    {node' : Nat} {answer' : Value}
    (judged : context.Judges (.intersection node components) value (.accepted answer))
    (judged' : context.Judges (.intersection node' components') value (.accepted answer')) :
    answer.eq answer' = true := by
  have swept := answer_swept strict (unionless_intersection unionless node) keyed judged
  have swept' := answer_swept strict (unionless_intersection
    (fun component member => unionless component (order.mem_iff.mp member)) node') keyed judged'
  rw [Schema.opens_intersection] at swept swept'
  simp only [order.mem_iff] at swept'
  exact swept.eq swept'

/-- Under strict options an intersection of schemas without unions is a conjunction: it accepts
the values, whatever their tags, that each component accepts on its own. In any other order the
components accept the same values, and answer them with equal data. -/
theorem intersection_conjoins (node : Nat) :
    (context.Accepts (.intersection node components) value ↔
        ∀ component ∈ components, context.Accepts component value) ∧
      ∀ (node' : Nat) (components' : List Schema), components'.Perm components →
        (context.Accepts (.intersection node' components') value ↔
          context.Accepts (.intersection node components) value) ∧
        ∀ answer answer', context.Judges (.intersection node components) value (.accepted answer) →
          context.Judges (.intersection node' components') value (.accepted answer') →
          answer.eq answer' = true := by
  have conjunction := accepts_intersection_iff strict unionless keyed node
  refine ⟨conjunction, fun node' components' order => ⟨?_, fun answer answer' =>
    intersection_answers_eq strict unionless keyed order⟩⟩
  have unionless' : ∀ component ∈ components',
      component.Throughout context.definitions (Schema.Unionless context.format) :=
    fun component member => unionless component (order.mem_iff.mp member)
  rw [conjunction, accepts_intersection_iff strict unionless' keyed node']
  simp only [order.mem_iff]

end

end Context

/-! ## Trees

A tree is judged as one that recurs by way of its name, by a type that allows no further fields,
and by a type that allows any.
-/

namespace Trees

/-- A tree, by name. -/
def tree : Schema :=
  .named ⟨0, "Tree"⟩

/-- A tree has a label, and trees below it. -/
def definitions (_ : NamedRef) : Schema :=
  .object 50
    [⟨"label", true, none, .string 51 {}⟩, ⟨"below", false, none, .array 52 tree none none⟩]
    .keep

/-- The fields that a tree may have. -/
def closed : Schema :=
  .object 53 [⟨"below", false, none, .unknown⟩, ⟨"note", false, none, .null⟩,
    ⟨"label", true, none, .unknown⟩] .deny

/-- Anything by any key, within an intersection of its own. -/
def spread : Schema :=
  .intersection 54 [.object 55 [] (.each .unknown)]

/-- The components, one after another. -/
def components : List Schema :=
  [closed, tree, spread]

/-- All nodes that the components reach. -/
def nodes : List Schema :=
  [closed, tree, spread, definitions ⟨0, "Tree"⟩, .string 51 {}, .array 52 tree none none, .unknown,
    .null, .object 55 [] (.each .unknown)]

/-- A tree without a note, that was judged before, above one with a field that has no value. -/
def oak : Value :=
  .object (.run 0) [("note", .undefined), ("label", .string "oak"), ("below", .array (.run 1)
    [.object (.run 2) [("age", .undefined), ("label", .string "twig")] []] [])] [tree]

/-- The components accept the tree in both directions, and answer it with equal data. -/
theorem oak_conjoined :
    let context : Context := ⟨definitions, fun _ => none, .strict⟩
    context.Accepts (.intersection 56 components) oak ∧
      (∀ component ∈ components, context.Accepts component oak) ∧
      ∃ answer answer', context.Judges (.intersection 56 components) oak (.accepted answer) ∧
        context.Judges (.intersection 57 components.reverse) oak (.accepted answer') ∧
        answer.eq answer' = true := by
  intro context
  have unionless : ∀ component ∈ components,
      component.Throughout context.definitions (Schema.Unionless context.format) := by
    have listed : ∀ component ∈ components, component ∈ nodes := by decide +kernel
    refine fun component member =>
      Schema.throughout_of_closed nodes (by decide +kernel) ?_ (listed component member)
    simp [nodes, Schema.unionless_iff, Schema.wellFormed_iff, Schema.DistinctNames,
      Schema.KnownFormats, closed, tree, spread, definitions, Property.names]
  have keyed : oak.Throughout Value.Keyed := by
    simp [oak, Value.Keyed, Fields.Distinct, Fields.keys]
  obtain ⟨answer, ended⟩ : ∃ answer, context.attempt 20 (.intersection 56 components) (.run 3) oak =
      .ok (.accepted answer) := ⟨_, by with_unfolding_all rfl⟩
  obtain ⟨answer', ended'⟩ : ∃ answer', context.attempt 20 (.intersection 57 components.reverse)
      (.run 4) oak = .ok (.accepted answer') := ⟨_, by with_unfolding_all rfl⟩
  obtain ⟨conjunction, orders⟩ := Context.intersection_conjoins rfl unionless keyed 56
  obtain ⟨_, equal⟩ := orders 57 components.reverse (List.reverse_perm components)
  have accepts : context.Accepts (.intersection 56 components) oak :=
    (Context.accepts_iff_judges rfl (Context.unionless_intersection unionless 56) keyed).mpr
      ⟨answer, 20, .run 3, ended⟩
  exact ⟨accepts, conjunction.mp accepts, answer, answer', ⟨20, .run 3, ended⟩,
    ⟨20, .run 4, ended'⟩, equal answer answer' ⟨20, .run 3, ended⟩ ⟨20, .run 4, ended'⟩⟩

end Trees

end Conform
