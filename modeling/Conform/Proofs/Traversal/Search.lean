import Conform.Proofs.Schema.Reach
import Conform.Traversal.Route
import Mathlib.Data.List.Perm.Subperm

/-!
# What a search meets

A search that may enter names without a bound is a relation between where it stands and
what it meets. The search with a bound is that relation wherever the names it can come to
are at most as many as the bound allows, since it enters none of them twice.

A meeting is one way through the search to one of its results. What a search meets is what
such a way leads to, in whatever order, so the text of a choice does not matter for it,
only whether there is one.
-/

namespace Conform

/-- A name is directly an object when its definition is one. -/
theorem NamedRef.isObject_iff {definitions : Definitions} {ref : NamedRef} :
    ref.isObject definitions = true ↔
      ∃ node properties additional, definitions ref = .object node properties additional := by
  unfold NamedRef.isObject
  split
  · next node properties additional found => exact ⟨fun _ => ⟨_, _, _, found⟩, fun _ => rfl⟩
  · next other =>
    refine ⟨fun impossible => absurd impossible Bool.false_ne_true, ?_⟩
    rintro ⟨node, properties, additional, found⟩
    exact absurd found (other node properties additional)

end Conform

namespace Conform.Traversal

/-- Where a search stands: after steps, behind a choice or not, at a schema. -/
structure Spot where
  steps : List Step
  behind : Option String
  schema : Schema

/-- Whether the options are a choice among several real ones. -/
def isFork (definitions : Definitions) (options : List Schema) : Bool :=
  1 < (options.filter (isReal definitions)).length

/-- A search goes into the definition of a name that is neither the leaf nor directly an
object, unless it is inside already. -/
def Enters (definitions : Definitions) (leaf : NamedRef) (entered : Entered) (ref : NamedRef) :
    Prop :=
  ref ≠ leaf ∧ ref.isObject definitions = false ∧ entered.lookup ref = none

/-- Where a search goes on from a schema that is not a name. -/
def Spot.parts (definitions : Definitions) (spot : Spot) : List Spot :=
  match spot.schema with
  | .array _ items _ _ => [⟨spot.steps ++ [.items], spot.behind, items⟩]
  | .object _ properties additional =>
    properties.map (fun property =>
      ⟨spot.steps ++ [.property property.name], spot.behind, property.body⟩) ++
    additional.bodies.map (fun body =>
      ⟨spot.steps ++ [.others (Property.names properties)], spot.behind, body⟩)
  | .union _ options | .intersection _ options =>
    options.map (fun option =>
      ⟨spot.steps, choice definitions options spot.steps spot.behind, option⟩)
  | _ => []

/-- What a search meets that may enter names without a bound. -/
inductive Searched (definitions : Definitions) (leaf : NamedRef) :
    Entered → Spot → List Sighting → Prop
  /-- Off names, it goes through the parts. -/
  | parts {entered : Entered} {spot : Spot} (found : Spot → List Sighting)
      (structural : ∀ ref, spot.schema ≠ .named ref)
      (each : ∀ part ∈ spot.parts definitions,
        Searched definitions leaf entered part (found part)) :
      Searched definitions leaf entered spot ((spot.parts definitions).flatMap found)
  /-- At a name that it does not go into, it ends. -/
  | stops {entered : Entered} {steps : List Step} {behind : Option String} {ref : NamedRef}
      (stays : ¬ Enters definitions leaf entered ref) :
      Searched definitions leaf entered ⟨steps, behind, .named ref⟩
        (atName definitions leaf (fun _ _ _ _ => []) entered steps behind ref)
  /-- At another name, it goes into the definition. -/
  | enters {entered : Entered} {steps : List Step} {behind : Option String} {ref : NamedRef}
      {found : List Sighting} (enters : Enters definitions leaf entered ref)
      (inside : Searched definitions leaf ((ref, steps.length) :: entered)
        ⟨steps, behind, definitions ref⟩ found) :
      Searched definitions leaf entered ⟨steps, behind, .named ref⟩ found

section

variable {definitions : Definitions} {leaf ref : NamedRef} {entered : Entered}
  {steps : List Step} {behind : Option String}
  {enter : Entered → List Step → Option String → NamedRef → List Sighting}

/-! ## The search part by part -/

/-- A search of several schemas searches each of them. -/
theorem searchAll_eq (schemas : List Schema) :
    searchAll definitions leaf enter entered steps behind schemas =
      schemas.flatMap (search definitions leaf enter entered steps behind) := by
  induction schemas with
  | nil => rfl
  | cons first rest ih => rw [searchAll, ih, List.flatMap_cons]

/-- A search of properties searches the body of each, a step further down. -/
theorem searchProperties_eq (properties : List (Property Schema)) :
    searchProperties definitions leaf enter entered steps behind properties =
      properties.flatMap (fun property =>
        search definitions leaf enter entered (steps ++ [.property property.name]) behind
          property.body) := by
  induction properties with
  | nil => rfl
  | cons first rest ih => rw [searchProperties, ih, List.flatMap_cons]

/-- A search of other fields searches what judges them. -/
theorem searchAdditional_eq (additional : Additional Schema) :
    searchAdditional definitions leaf enter entered steps behind additional =
      additional.bodies.flatMap (search definitions leaf enter entered steps behind) := by
  cases additional <;> simp [searchAdditional, Additional.bodies]

/-- Off names, a search is the searches of the parts one after the other. -/
theorem search_eq_flatMap {spot : Spot} (structural : ∀ ref, spot.schema ≠ .named ref) :
    search definitions leaf enter entered spot.steps spot.behind spot.schema =
      (spot.parts definitions).flatMap (fun part =>
        search definitions leaf enter entered part.steps part.behind part.schema) := by
  obtain ⟨steps, behind, schema⟩ := spot
  cases schema with
  | named ref => exact absurd rfl (structural ref)
  | object node properties additional =>
    simp only [search, searchProperties_eq, searchAdditional_eq, Spot.parts, List.flatMap_append,
      List.flatMap_map]
  | array node items least most =>
    simp only [search, Spot.parts, List.flatMap_cons, List.flatMap_nil, List.append_nil]
  | union node options => simp only [search, searchAll_eq, Spot.parts, List.flatMap_map]
  | intersection node components =>
    simp only [search, searchAll_eq, Spot.parts, List.flatMap_map]
  | unknown => rfl
  | void => rfl
  | null => rfl
  | boolean node rules => rfl
  | integer node rules => rfl
  | number node rules => rfl
  | string node rules => rfl

/-- The parts of a spot are parts of its schema, and smaller. -/
theorem Spot.parts_smaller {spot part : Spot} (member : part ∈ spot.parts definitions) :
    part.schema ∈ spot.schema.parts definitions ∧ sizeOf part.schema < sizeOf spot.schema := by
  obtain ⟨steps, behind, schema⟩ := spot
  cases schema with
  | object node properties additional =>
    obtain inside | inside := List.mem_append.mp member
    · obtain ⟨property, declared, rfl⟩ := List.mem_map.mp inside
      refine ⟨List.mem_append_right _ (Schema.body_mem_contents declared), ?_⟩
      have smaller := List.sizeOf_lt_of_mem declared
      have body : sizeOf property.body < sizeOf property := by
        cases property
        simp only [Property.mk.sizeOf_spec]
        omega
      simp only [Schema.object.sizeOf_spec]
      omega
    · obtain ⟨body, typed, rfl⟩ := List.mem_map.mp inside
      cases additional with
      | each judge =>
        obtain rfl := List.mem_singleton.mp typed
        refine ⟨List.mem_append_right _ Schema.each_mem_contents, ?_⟩
        simp only [Schema.object.sizeOf_spec, Additional.each.sizeOf_spec]
        omega
      | keep => cases typed
      | deny => cases typed
  | array node items least most =>
    obtain rfl := List.mem_singleton.mp member
    refine ⟨List.mem_append_right _ Schema.items_mem_contents, ?_⟩
    simp only [Schema.array.sizeOf_spec]
    omega
  | union node options =>
    obtain ⟨option, inside, rfl⟩ := List.mem_map.mp member
    refine ⟨List.mem_append_left _ inside, ?_⟩
    have smaller := List.sizeOf_lt_of_mem inside
    simp only [Schema.union.sizeOf_spec]
    omega
  | intersection node components =>
    obtain ⟨component, inside, rfl⟩ := List.mem_map.mp member
    refine ⟨List.mem_append_left _ inside, ?_⟩
    have smaller := List.sizeOf_lt_of_mem inside
    simp only [Schema.intersection.sizeOf_spec]
    omega
  | named ref => cases member
  | unknown => cases member
  | void => cases member
  | null => cases member
  | boolean node rules => cases member
  | integer node rules => cases member
  | number node rules => cases member
  | string node rules => cases member

/-! ## At names -/

/-- A search goes on into the definition of a name that it enters. -/
theorem atName_of_enters (enters : Enters definitions leaf entered ref) :
    atName definitions leaf enter entered steps behind ref =
      enter ((ref, steps.length) :: entered) steps behind ref := by
  obtain ⟨other, indirect, new⟩ := enters
  simp only [atName, if_neg other, indirect, Bool.false_eq_true, ↓reduceIte, new]

/-- A search that does not enter a name has nothing to do with how it would go on. -/
theorem atName_of_stays (stays : ¬ Enters definitions leaf entered ref)
    (enter' : Entered → List Step → Option String → NamedRef → List Sighting) :
    atName definitions leaf enter entered steps behind ref =
      atName definitions leaf enter' entered steps behind ref := by
  unfold atName
  split
  · rfl
  · rename_i other
    split
    · rfl
    · rename_i indirect
      cases found : entered.lookup ref with
      | some depth => rfl
      | none => exact absurd ⟨other, Bool.not_eq_true _ ▸ indirect, found⟩ stays

/-- A name that has been entered is found among those entered. -/
theorem lookup_ne_none_of_mem {entered : Entered} (member : ref ∈ entered.map Prod.fst) :
    entered.lookup ref ≠ none := by
  intro absent
  obtain ⟨⟨found, depth⟩, listed, rfl⟩ := List.mem_map.mp member
  have different := (List.lookup_eq_none_iff.mp absent) _ listed
  simp at different

end

/-! ## The bound suffices -/

/-- Only the known names are reached from a schema. -/
def Knows (definitions : Definitions) (known : List NamedRef) (schema : Schema) : Prop :=
  ∀ ref, schema.Reaches definitions (.named ref) → ref ∈ known

/-- The names entered are known, each entered once, and the search may enter so many more
that all known names together are no more than `names`. -/
structure Affordable (known : List NamedRef) (names fuel : Nat) (entered : Entered) : Prop where
  distinct : (entered.map Prod.fst).Nodup
  inside : ∀ ref ∈ entered.map Prod.fst, ref ∈ known
  bounded : known.length ≤ names
  enough : names < fuel + entered.length

section

variable {definitions : Definitions} {leaf ref : NamedRef} {known : List NamedRef}
  {names fuel : Nat} {entered : Entered}

/-- What knows the names of a schema knows those of its parts. -/
theorem Knows.part {schema part : Schema} (knows : Knows definitions known schema)
    (member : part ∈ schema.parts definitions) : Knows definitions known part :=
  fun ref reached => knows ref (Relation.ReflTransGen.head member reached)

/-- What knows the names of a schema knows those of its definition. -/
theorem Knows.definition (knows : Knows definitions known (.named ref)) :
    Knows definitions known (definitions ref) :=
  knows.part (List.mem_append_left _ Schema.definition_mem_facets)

/-- A search that is affordable has fuel left. -/
theorem Affordable.positive (affordable : Affordable known names fuel entered) : 0 < fuel := by
  have few : (entered.map Prod.fst).length ≤ known.length :=
    (List.Nodup.subperm affordable.distinct affordable.inside).length_le
  have enough := affordable.enough
  have bounded := affordable.bounded
  rw [List.length_map] at few
  omega

/-- To enter one more name is affordable. -/
theorem Affordable.enter (affordable : Affordable known names (fuel + 1) entered)
    (new : entered.lookup ref = none) (listed : ref ∈ known) (depth : Nat) :
    Affordable known names fuel ((ref, depth) :: entered) where
  distinct :=
    List.nodup_cons.mpr ⟨fun member => lookup_ne_none_of_mem member new, affordable.distinct⟩
  inside := List.forall_mem_cons.mpr ⟨listed, affordable.inside⟩
  bounded := affordable.bounded
  enough := by
    have enough := affordable.enough
    simp only [List.length_cons]
    omega

end

/-- A search that may enter all known names does what a search without a bound does. -/
theorem searched_search {definitions : Definitions} {leaf : NamedRef} {known : List NamedRef}
    {names fuel : Nat} {entered : Entered} (affordable : Affordable known names fuel entered)
    (spot : Spot) (knows : Knows definitions known spot.schema) :
    Searched definitions leaf entered spot
      (search definitions leaf (enterName definitions leaf fuel) entered spot.steps spot.behind
        spot.schema) := by
  -- Off names the schema gets smaller; at a name that is entered the fuel does.
  by_cases structural : ∀ ref, spot.schema ≠ .named ref
  · rw [search_eq_flatMap structural]
    refine .parts _ structural (fun part member => ?_)
    have smaller := Spot.parts_smaller member
    exact searched_search affordable part (knows.part smaller.1)
  · obtain ⟨steps, behind, schema⟩ := spot
    obtain ⟨ref, rfl⟩ := not_forall_not.mp structural
    rw [search]
    by_cases enters : Enters definitions leaf entered ref
    · obtain ⟨less, more⟩ := Nat.exists_eq_add_one.mpr affordable.positive
      have listed := knows ref Relation.ReflTransGen.refl
      have inside := (more ▸ affordable).enter enters.2.2 listed steps.length
      rw [atName_of_enters enters, more, enterName]
      exact .enters enters
        (searched_search inside ⟨steps, behind, definitions ref⟩ knows.definition)
    · rw [atName_of_stays enters (fun _ _ _ _ => [])]
      exact .stops enters
termination_by (fuel, sizeOf spot.schema)
decreasing_by
  · exact Prod.Lex.right _ smaller.2
  · exact Prod.Lex.left _ _ (by omega)

/-- What a plan meets is what a search without a bound meets. -/
theorem searched_sightings {definitions : Definitions} {leaf ref : NamedRef}
    {known : List NamedRef} {names : Nat} (bounded : known.length ≤ names)
    (knows : Knows definitions known (.named ref)) (behind : Option String) :
    Searched definitions leaf [(ref, 0)] ⟨[], behind, definitions ref⟩
      (sightings definitions leaf names ref behind) := by
  have affordable : Affordable known names names [(ref, 0)] :=
    { distinct := List.pairwise_singleton _ ref
      inside := by
        rintro _ member
        obtain rfl := List.mem_singleton.mp member
        exact knows _ Relation.ReflTransGen.refl
      bounded := bounded
      enough := Nat.lt_succ_self names }
  exact searched_search affordable ⟨[], behind, definitions ref⟩ knows.definition

/-! ## Meetings -/

/-- The name that a goal stands at. -/
def Goal.name (leaf : NamedRef) : Goal → NamedRef
  | .leaf => leaf
  | .tagged ref => ref
  | .shaped ref _ => ref

/-- The name of a goal that goes on is that of its next entry. -/
theorem Goal.name_of_entry? {goal : Goal} {next : Entry} (continues : goal.entry? = some next)
    (leaf : NamedRef) : goal.name leaf = next.ref := by
  cases goal <;> cases continues <;> rfl

/-- The route of a sighting; none for a leaf that cannot be told apart. -/
def Sighting.result : Sighting → Option Route
  | .route met _ => some met
  | .ambiguous _ => none

/-- A way of a search from where it stands to a result: a route, or none for a leaf that
cannot be told apart. Whether it lies behind a choice is all that is kept of the choice. -/
inductive Meets (definitions : Definitions) (leaf : NamedRef) :
    Entered → List Step → (forked : Bool) → Schema → Option Route → Prop
  | property {entered : Entered} {steps : List Step} {forked : Bool} {node : Nat}
      {properties : List (Property Schema)} {additional : Additional Schema}
      {property : Property Schema} {result : Option Route} (member : property ∈ properties)
      (inside : Meets definitions leaf entered (steps ++ [.property property.name]) forked
        property.body result) :
      Meets definitions leaf entered steps forked (.object node properties additional) result
  | additional {entered : Entered} {steps : List Step} {forked : Bool} {node : Nat}
      {properties : List (Property Schema)} {body : Schema} {result : Option Route}
      (inside : Meets definitions leaf entered (steps ++ [.others (Property.names properties)])
        forked body result) :
      Meets definitions leaf entered steps forked (.object node properties (.each body)) result
  | items {entered : Entered} {steps : List Step} {forked : Bool} {node : Nat} {items : Schema}
      {least most : Option Nat} {result : Option Route}
      (inside : Meets definitions leaf entered (steps ++ [.items]) forked items result) :
      Meets definitions leaf entered steps forked (.array node items least most) result
  | option {entered : Entered} {steps : List Step} {forked : Bool} {node : Nat}
      {options : List Schema} {option : Schema} {result : Option Route}
      (member : option ∈ options)
      (inside : Meets definitions leaf entered steps (forked || isFork definitions options) option
        result) :
      Meets definitions leaf entered steps forked (.union node options) result
  | component {entered : Entered} {steps : List Step} {forked : Bool} {node : Nat}
      {components : List Schema} {component : Schema} {result : Option Route}
      (member : component ∈ components)
      (inside : Meets definitions leaf entered steps (forked || isFork definitions components)
        component result) :
      Meets definitions leaf entered steps forked (.intersection node components) result
  | name {entered : Entered} {steps : List Step} {forked : Bool} {ref : NamedRef}
      {result : Option Route} (enters : Enters definitions leaf entered ref)
      (inside : Meets definitions leaf ((ref, steps.length) :: entered) steps forked
        (definitions ref) result) :
      Meets definitions leaf entered steps forked (.named ref) result
  | leaf {entered : Entered} {steps : List Step} {forked : Bool}
      (told : forked = false ∨ leaf.isObject definitions = true) :
      Meets definitions leaf entered steps forked (.named leaf) (some ⟨steps, .leaf⟩)
  | unclear {entered : Entered} {steps : List Step} (indirect : leaf.isObject definitions = false) :
      Meets definitions leaf entered steps true (.named leaf) none
  | tagged {entered : Entered} {steps : List Step} {forked : Bool} {ref : NamedRef}
      (other : ref ≠ leaf) (object : ref.isObject definitions = true) :
      Meets definitions leaf entered steps forked (.named ref) (some ⟨steps, .tagged ref⟩)
  | shaped {entered : Entered} {steps : List Step} {forked : Bool} {ref : NamedRef} {depth : Nat}
      (other : ref ≠ leaf) (indirect : ref.isObject definitions = false)
      (inside : entered.lookup ref = some depth) (deeper : depth < steps.length) :
      Meets definitions leaf entered steps forked (.named ref) (some ⟨steps, .shaped ref forked⟩)

section

variable {definitions : Definitions} {leaf ref : NamedRef} {entered : Entered}
  {steps : List Step} {behind : Option String} {result : Option Route}

/-- There is a choice behind when there was one before or the options are a fork. -/
theorem choice_isSome (options : List Schema) :
    (choice definitions options steps behind).isSome =
      (behind.isSome || isFork definitions options) := by
  cases behind with
  | some path => rfl
  | none =>
    simp only [choice, isFork, Option.isSome_none, Bool.false_or]
    split <;> simp_all

/-- Off names, a meeting goes by way of a part. -/
theorem meets_iff_part {spot : Spot} (structural : ∀ ref, spot.schema ≠ .named ref) :
    Meets definitions leaf entered spot.steps spot.behind.isSome spot.schema result ↔
      ∃ part ∈ spot.parts definitions,
        Meets definitions leaf entered part.steps part.behind.isSome part.schema result := by
  obtain ⟨steps, behind, schema⟩ := spot
  constructor
  · intro meets
    change Meets definitions leaf entered steps behind.isSome schema result at meets
    generalize forked : behind.isSome = flag at meets
    cases meets with
    | property member inside =>
      exact ⟨_, List.mem_append_left _ (List.mem_map_of_mem member), forked ▸ inside⟩
    | additional inside =>
      exact ⟨_, List.mem_append_right _ (List.mem_map_of_mem (List.mem_singleton.mpr rfl)),
        forked ▸ inside⟩
    | items inside => exact ⟨_, List.mem_singleton.mpr rfl, forked ▸ inside⟩
    | option member inside =>
      exact ⟨_, List.mem_map_of_mem member, by rw [choice_isSome, forked]; exact inside⟩
    | component member inside =>
      exact ⟨_, List.mem_map_of_mem member, by rw [choice_isSome, forked]; exact inside⟩
    | name enters inside => exact absurd rfl (structural _)
    | leaf told => exact absurd rfl (structural _)
    | unclear indirect => exact absurd rfl (structural _)
    | tagged other object => exact absurd rfl (structural _)
    | shaped other indirect inside deeper => exact absurd rfl (structural _)
  · rintro ⟨part, member, inside⟩
    cases schema with
    | object node properties additional =>
      obtain declared | extra := List.mem_append.mp member
      · obtain ⟨property, listed, rfl⟩ := List.mem_map.mp declared
        exact .property listed inside
      · obtain ⟨body, typed, rfl⟩ := List.mem_map.mp extra
        cases additional with
        | each judge =>
          obtain rfl := List.mem_singleton.mp typed
          exact .additional inside
        | keep => cases typed
        | deny => cases typed
    | array node items least most =>
      obtain rfl := List.mem_singleton.mp member
      exact .items inside
    | union node options =>
      obtain ⟨option, listed, rfl⟩ := List.mem_map.mp member
      exact .option listed (choice_isSome options ▸ inside)
    | intersection node components =>
      obtain ⟨component, listed, rfl⟩ := List.mem_map.mp member
      exact .component listed (choice_isSome components ▸ inside)
    | named ref => cases member
    | unknown => cases member
    | void => cases member
    | null => cases member
    | boolean node rules => cases member
    | integer node rules => cases member
    | number node rules => cases member
    | string node rules => cases member

/-- At a name that the search does not go into, the sightings are what is met. -/
theorem meets_iff_stays (stays : ¬ Enters definitions leaf entered ref) :
    Meets definitions leaf entered steps behind.isSome (.named ref) result ↔
      result ∈ (atName definitions leaf (fun _ _ _ _ => []) entered steps behind ref).map
        Sighting.result := by
  constructor
  · intro meets
    generalize forked : behind.isSome = flag at meets
    cases meets with
    | name enters inside => exact absurd enters stays
    | leaf told =>
      cases behind with
      | none => simp [atName, Sighting.result]
      | some path =>
        obtain rfl | object := told
        · cases forked
        · simp [atName, Sighting.result, object]
    | unclear indirect =>
      obtain ⟨path, rfl⟩ := Option.isSome_iff_exists.mp forked
      simp [atName, Sighting.result, indirect]
    | tagged other object => simp [atName, Sighting.result, other, object]
    | shaped other indirect inside deeper =>
      simp [atName, Sighting.result, other, indirect, inside, deeper, forked]
  · intro member
    unfold atName at member
    split at member
    · rename_i same
      subst same
      cases behind with
      | none =>
        simp only [Sighting.result, List.map_cons, List.map_nil, List.mem_singleton] at member
        subst member
        exact .leaf (.inl rfl)
      | some path =>
        cases object : ref.isObject definitions with
        | true =>
          simp only [object, Sighting.result, ↓reduceIte, List.map_cons, List.map_nil,
            List.mem_singleton] at member
          subst member
          exact .leaf (.inr object)
        | false =>
          simp only [object, Sighting.result, Bool.false_eq_true, ↓reduceIte, List.map_cons,
            List.map_nil, List.mem_singleton] at member
          subst member
          exact .unclear object
    · rename_i other
      cases object : ref.isObject definitions with
      | true =>
        simp only [object, Sighting.result, ↓reduceIte, List.map_cons, List.map_nil,
          List.mem_singleton] at member
        subst member
        exact .tagged other object
      | false =>
        cases found : entered.lookup ref with
        | none => exact absurd ⟨other, object, found⟩ stays
        | some depth =>
          simp only [object, found, Bool.false_eq_true, ↓reduceIte] at member
          split at member
          · rename_i deeper
            obtain rfl := List.mem_singleton.mp member
            exact .shaped other object found deeper
          · cases member

/-- What a search meets is what meetings lead to. -/
theorem Searched.mem_iff {spot : Spot} {found : List Sighting}
    (searched : Searched definitions leaf entered spot found) :
    result ∈ found.map Sighting.result ↔
      Meets definitions leaf entered spot.steps spot.behind.isSome spot.schema result := by
  induction searched with
  | parts found structural each ih =>
    rw [meets_iff_part structural, List.map_flatMap, List.mem_flatMap]
    exact exists_congr (fun part => and_congr_right (ih part))
  | stops stays => exact (meets_iff_stays stays).symm
  | @enters entered steps behind ref found enters inside ih =>
    rw [ih]
    refine ⟨fun meets => .name enters meets, fun meets => ?_⟩
    change Meets definitions leaf entered steps behind.isSome (.named ref) result at meets
    change Meets definitions leaf _ steps behind.isSome (definitions ref) result
    generalize behind.isSome = flag at meets ⊢
    cases meets with
    | name _ inside => exact inside
    | leaf told => exact absurd rfl enters.1
    | unclear indirect => exact absurd rfl enters.1
    | tagged other object => exact absurd (object.symm.trans enters.2.1) (by decide)
    | shaped other indirect inside deeper => exact absurd (inside.symm.trans enters.2.2) (by simp)

/-- A sighting has the choice that its route is marked with. -/
def Sighting.Marked : Sighting → Prop
  | .route ⟨_, .shaped _ forked⟩ behind => forked = behind.isSome
  | .route ⟨_, .tagged _⟩ behind => behind = none
  | _ => True

/-- What a search meets is marked with the choice that it lies behind. -/
theorem Searched.marked {spot : Spot} {found : List Sighting}
    (searched : Searched definitions leaf entered spot found) :
    ∀ sighting ∈ found, sighting.Marked := by
  induction searched with
  | parts found structural each ih =>
    intro sighting member
    obtain ⟨part, listed, inside⟩ := List.mem_flatMap.mp member
    exact ih part listed sighting inside
  | @stops entered steps behind ref stays =>
    intro sighting member
    unfold atName at member
    split at member
    · cases behind with
      | none =>
        obtain rfl := List.mem_singleton.mp member
        trivial
      | some path =>
        simp only at member
        split at member <;> (obtain rfl := List.mem_singleton.mp member; trivial)
    · split at member
      · obtain rfl := List.mem_singleton.mp member
        rfl
      · split at member
        · split at member
          · obtain rfl := List.mem_singleton.mp member
            rfl
          · cases member
        · cases member
  | enters enters inside ih => exact ih

/-- The name where a meeting ends is reached from where it starts. -/
theorem Meets.reaches_goal {schema : Schema} {forked : Bool} {route : Route}
    (meets : Meets definitions leaf entered steps forked schema (some route)) :
    schema.Reaches definitions (.named (route.goal.name leaf)) := by
  generalize target : some route = result at meets
  induction meets with
  | property member inside ih =>
    exact .head (List.mem_append_right _ (Schema.body_mem_contents member)) (ih target)
  | additional inside ih =>
    exact .head (List.mem_append_right _ Schema.each_mem_contents) (ih target)
  | items inside ih => exact .head (List.mem_append_right _ Schema.items_mem_contents) (ih target)
  | option member inside ih => exact .head (List.mem_append_left _ member) (ih target)
  | component member inside ih => exact .head (List.mem_append_left _ member) (ih target)
  | name enters inside ih =>
    exact .head (List.mem_append_left _ Schema.definition_mem_facets) (ih target)
  | leaf told =>
    cases target
    exact .refl
  | unclear indirect => cases target
  | tagged other object =>
    cases target
    exact .refl
  | shaped other indirect inside deeper =>
    cases target
    exact .refl

/-- The names where plans start next are reached from where a meeting starts. -/
theorem Meets.reaches {schema : Schema} {forked : Bool} {route : Route} {next : Entry}
    (meets : Meets definitions leaf entered steps forked schema (some route))
    (continues : route.goal.entry? = some next) :
    schema.Reaches definitions (.named next.ref) :=
  Goal.name_of_entry? continues leaf ▸ meets.reaches_goal

end

end Conform.Traversal

namespace Conform.Shapes

/-- The names of the family of shapes. -/
def names : List NamedRef :=
  [⟨0, "Shape"⟩, ⟨1, "Circle"⟩, ⟨2, "Group"⟩]

/-- A shape reaches no other names. -/
theorem knows : Traversal.Knows definitions names shape := by
  intro ref reached
  have listed : ∀ node ∈ nodes, ∀ name, node = .named name → name ∈ names := by
    simp [nodes, names, shape, circle, group]
  exact throughout listed (.head _) (.named ref) reached ref rfl

end Conform.Shapes
