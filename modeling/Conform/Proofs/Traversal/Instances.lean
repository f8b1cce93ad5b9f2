import Conform.Proofs.Attempt.Equality
import Conform.Proofs.Revalidation.Vouched
import Conform.Proofs.Traversal.Completeness
import Conform.Proofs.Traversal.Once
import Conform.Proofs.Traversal.Verdict

/-!
# The transform sees leaves

A traversal takes its way through an answer by the schemas alone where no name is told by its
tag. On that way every schema has granted the part where it is: a container grants its parts, an
intersection grants by each of its components, and of a union that is no choice only one option
is real. Behind a choice the way leads on by tags, which are earned. So whatever the transform is
called with was granted by the leaf, and the leaf's validator refuses it only because several
options match.

One case is left out. Options that stand for null or for nothing do not make a choice, and where
the leaf is told neither by a tag nor by a check, the value of such an option passes for a leaf.
-/

namespace Conform

/-- Whether values tell that they belong to the name: containers by its tag, scalars by its
check. -/
def NamedRef.isTold (definitions : Definitions) (ref : NamedRef) : Bool :=
  match (definitions ref).resolve definitions with
  | .object _ _ _ => true
  | .array _ _ _ _ => true
  | node => node.isScalar definitions

end Conform

namespace Conform.Schema

/-- To judge what is at a place in a value, one schema leads to another, whatever the value is:
names lead to their definitions, and choices to all their options. -/
inductive Assigns (definitions : Definitions) (schema : Schema) :
    List Value.Position → Schema → Prop
  | here : Assigns definitions schema [] schema
  | facet {place : List Value.Position} {outer inner : Schema}
      (assigns : Assigns definitions schema place outer)
      (member : inner ∈ outer.facets definitions) : Assigns definitions schema place inner
  | property {place : List Value.Position} {node : Nat} {properties : List (Property Schema)}
      {additional : Additional Schema} {property : Property Schema}
      (assigns : Assigns definitions schema place (.object node properties additional))
      (member : property ∈ properties) :
      Assigns definitions schema (place ++ [.key property.name]) property.body
  | field {place : List Value.Position} {node : Nat} {properties : List (Property Schema)}
      {body : Schema} {key : String}
      (assigns : Assigns definitions schema place (.object node properties (.each body)))
      (undeclared : key ∉ Property.names properties) :
      Assigns definitions schema (place ++ [.key key]) body
  | item {place : List Value.Position} {node : Nat} {items : Schema} {least most : Option Nat}
      (assigns : Assigns definitions schema place (.array node items least most)) (index : Nat) :
      Assigns definitions schema (place ++ [.index index]) items

/-- What is assigned to a place is reached. -/
theorem Assigns.reaches {definitions : Definitions} {schema inner : Schema}
    {place : List Value.Position} (assigns : schema.Assigns definitions place inner) :
    schema.Reaches definitions inner := by
  induction assigns with
  | here => exact .refl
  | facet assigns member ih => exact ih.tail (List.mem_append_left _ member)
  | property assigns member ih =>
    exact ih.tail (List.mem_append_right _ (body_mem_contents member))
  | field assigns undeclared ih => exact ih.tail (List.mem_append_right _ each_mem_contents)
  | item assigns index ih => exact ih.tail (List.mem_append_right _ items_mem_contents)

end Conform.Schema

namespace Conform.Traversal

section

variable {context : Context} {root leaf : NamedRef} {schema : Schema} {node : Nat} {value : Value}
  {position : List Value.Position}

/-! ## Where a search stands -/

/-- Of a union that is no choice, at the place of a value, one option granted the value and another
leads to the schema. -/
def Beside (context : Context) (root : NamedRef) (place : List Value.Position) (schema : Schema)
    (value : Value) : Prop :=
  ∃ node options option other,
    (Schema.named root).Assigns context.definitions place (.union node options) ∧
    isFork context.definitions options = false ∧ option ∈ options ∧ other ∈ options ∧
    option ≠ other ∧ context.Granted option value ∧ other.Assigns context.definitions [] schema

/-- What is beside an option is beside the facets of the schema that it leads to. -/
theorem Beside.facet {inner : Schema} (beside : Beside context root position schema value)
    (member : inner ∈ schema.facets context.definitions) :
    Beside context root position inner value := by
  obtain ⟨node, options, option, other, assigns, alone, among, among', differ, granted, leads⟩ :=
    beside
  exact ⟨node, options, option, other, assigns, alone, among, among', differ, granted,
    leads.facet member⟩

/-- A search stands on a part of an answer at a schema that vouches for the part, or where an
option beside the one taken granted the part. Then it takes no further step: the part is a
scalar, or the schema stands for null or for nothing. -/
inductive Stands (context : Context) (root : NamedRef) (place : List Value.Position)
    (schema : Schema) (value : Value) : Prop
  | vouched (vouched : context.Vouched schema value)
  | beside (beside : Beside context root place schema value)
      (stays : value.tags? = none ∨ isReal context.definitions schema = false)

/-- Where a search goes on with the parts of a container, the schema vouches for it. -/
theorem Stands.container (stands : Stands context root position schema value)
    (real : isReal context.definitions schema = true) (container : value.tags?.isSome = true) :
    context.Vouched schema value := by
  cases stands with
  | vouched vouched => exact vouched
  | beside beside stays =>
    rcases stays with scalar | unreal
    · rw [scalar] at container
      cases container
    · cases real.symm.trans unreal

/-- From a name a search goes on with the definition. -/
theorem Stands.definition {ref : NamedRef} (sound : context.Sound (.named ref))
    (stands : Stands context root position (.named ref) value) :
    Stands context root position (context.definitions ref) value := by
  cases stands with
  | vouched vouched => exact .vouched ((vouched.granted rfl).definition sound)
  | beside beside stays =>
    refine .beside (beside.facet Schema.definition_mem_facets) (stays.imp_right (fun unreal => ?_))
    by_contra real
    rw [Bool.not_eq_false] at real
    cases (isReal_name real).symm.trans unreal

/-- What an option that is not real granted is a scalar. -/
theorem scalar_of_granted (strict : context.settings = .strict) (sound : context.Sound schema)
    (unreal : isReal context.definitions schema = false) (granted : context.Granted schema value) :
    value.tags? = none := by
  have verbatim : context.settings.Verbatim := (strict ▸ Options.strict_faithful).verbatim
  obtain ⟨item, answer, _, agree, judged⟩ := granted
  have leaf : (schema.resolve context.definitions).isLeaf = true ∧
      schema.resolve context.definitions ≠ .unknown := by
    unfold isReal at unreal
    cases found : schema.resolve context.definitions with
    | null => exact ⟨rfl, by simp⟩
    | void => exact ⟨rfl, by simp⟩
    | _ =>
      rw [found] at unreal
      cases unreal
  obtain ⟨_, scalar⟩ :=
    Context.scalar_of_follow verbatim sound leaf.1 leaf.2 judged
  rw [agree.eq_of_scalar scalar]
  exact scalar

/-- From a union that is no choice a search goes on with an option. -/
theorem Stands.option (strict : context.settings = .strict) {options : List Schema}
    (sound : context.Sound (.union node options))
    (assigns : (Schema.named root).Assigns context.definitions position (.union node options))
    (alone : isFork context.definitions options = false) {option : Schema}
    (member : option ∈ options)
    (stands : Stands context root position (.union node options) value) :
    Stands context root position option value := by
  cases stands with
  | beside beside stays =>
    rcases stays with scalar | unreal
    · exact .beside (beside.facet member) (.inl scalar)
    · cases unreal
  | vouched vouched =>
    obtain ⟨taken, among, granted⟩ := (vouched.granted rfl).option sound
    by_cases same : taken = option
    · subst same
      exact .vouched (granted.vouched (sound.facet among))
    · have beside : Beside context root position option value :=
        ⟨node, options, taken, option, assigns, alone, among, member, same, granted, .here⟩
      apply Stands.beside beside
      -- only one of the two options can be real
      cases real : isReal context.definitions taken with
      | false => exact .inl (scalar_of_granted strict (sound.facet among) real granted)
      | true =>
        right
        by_contra real'
        rw [Bool.not_eq_false] at real'
        exact same (eq_of_isFork_eq_false alone among member real real')

/-- From an intersection a search goes on with a component. -/
theorem Stands.component (strict : context.settings = .strict) {components : List Schema}
    (sound : context.Sound (.intersection node components)) {component : Schema}
    (member : component ∈ components)
    (stands : Stands context root position (.intersection node components) value) :
    Stands context root position component value := by
  cases stands with
  | vouched vouched =>
    have granted := (vouched.granted rfl).component strict sound member
    exact .vouched (granted.vouched (sound.facet member))
  | beside beside stays =>
    rcases stays with scalar | unreal
    · exact .beside (beside.facet member) (.inl scalar)
    · cases unreal

/-! ## Along the routes -/

variable {entered : Entered} {steps rest : List Step} {forked : Bool} {route : Route}
  {part : Value} {place : List Value.Position}

/-- A route ends where nothing but the schemas on its way tells what it comes to. -/
def Goal.Untold (definitions : Definitions) (leaf : NamedRef) : Goal → Prop
  | .leaf => leaf.isObject definitions = false
  | .tagged _ => False
  | .shaped _ forked => forked = false

/-- What is left of a route, when it goes on from some steps with one more. -/
theorem rest_of_prefix {step : Step} (whole : route.steps = steps ++ rest)
    (inside : steps ++ [step] <+: route.steps) :
    ∃ more, rest = step :: more ∧ route.steps = (steps ++ [step]) ++ more := by
  obtain ⟨more, same⟩ := inside
  refine ⟨more, ?_, same.symm⟩
  rw [whole, List.append_assoc] at same
  exact (List.append_cancel_left same).symm

/-- Where the steps of a route lead, the name that the route comes to is assigned. A search that
stands on a part of an answer, unless it is behind a choice, stands there as well, when the route
goes untold. -/
theorem Meets.arrives (strict : context.settings = .strict) (sound : context.Sound (.named root))
    (meets : Meets context.definitions leaf entered steps forked schema (some route))
    (whole : route.steps = steps ++ rest) (taken : StepsTo rest value place part)
    (keyed : value.Throughout Value.Keyed)
    (assigns : (Schema.named root).Assigns context.definitions position schema)
    (stands : forked = false → Stands context root position schema value) :
    (Schema.named root).Assigns context.definitions (position ++ place)
        (.named (route.goal.name leaf)) ∧
      (route.goal.Untold context.definitions leaf →
        Stands context root (position ++ place) (.named (route.goal.name leaf)) part) := by
  generalize target : some route = result at meets
  induction meets generalizing rest value position place with
  | property member inside ih =>
    subst target
    obtain ⟨more, rfl, onward⟩ := rest_of_prefix whole inside.inward.1
    cases taken with
    | property there further =>
      have inner := assigns.property member
      rw [List.append_cons]
      refine ih onward further (keyed.field (Fields.mem_of_lookup there)) inner
        (fun single => ?_) rfl
      have granted := ((stands single).container rfl rfl).property strict member there
      exact .vouched (granted.vouched (sound.reached inner.reaches))
  | additional inside ih =>
    subst target
    obtain ⟨more, rfl, onward⟩ := rest_of_prefix whole inside.inward.1
    cases taken with
    | others member undeclared there further =>
      have inner := assigns.field undeclared
      rw [List.append_cons]
      refine ih onward further (keyed.field member) inner (fun single => ?_) rfl
      have same := Fields.lookup_of_mem keyed.here member
      have granted := ((stands single).container rfl rfl).field strict undeclared
        (same.symm ▸ there)
      rw [same] at granted
      exact .vouched (granted.vouched (sound.reached inner.reaches))
  | items inside ih =>
    subst target
    obtain ⟨more, rfl, onward⟩ := rest_of_prefix whole inside.inward.1
    cases taken with
    | @items _ _ _ _ index _ _ _ there further =>
      have inner := assigns.item index
      rw [List.append_cons]
      refine ih onward further (keyed.item (List.mem_of_getElem? there)) inner
        (fun single => ?_) rfl
      have granted := ((stands single).container rfl rfl).item strict there
      exact .vouched (granted.vouched (sound.reached inner.reaches))
  | option member inside ih =>
    refine ih whole taken keyed (assigns.facet member) (fun single => ?_) target
    obtain ⟨single, alone⟩ := Bool.or_eq_false_iff.mp single
    exact (stands single).option strict (sound.reached assigns.reaches) assigns alone member
  | component member inside ih =>
    refine ih whole taken keyed (assigns.facet member) (fun single => ?_) target
    obtain ⟨single, alone⟩ := Bool.or_eq_false_iff.mp single
    exact (stands single).component strict (sound.reached assigns.reaches) member
  | name enters inside ih =>
    refine ih whole taken keyed (assigns.facet Schema.definition_mem_facets) (fun single => ?_)
      target
    exact (stands single).definition (sound.reached assigns.reaches)
  | leaf told =>
    cases target
    obtain rfl := List.self_eq_append_right.mp whole
    cases taken
    rw [List.append_nil]
    refine ⟨assigns, fun untold => ?_⟩
    rcases told with single | object
    · exact stands single
    · cases object.symm.trans untold
  | unclear indirect => cases target
  | tagged other object =>
    cases target
    obtain rfl := List.self_eq_append_right.mp whole
    cases taken
    rw [List.append_nil]
    exact ⟨assigns, fun untold => absurd untold id⟩
  | shaped other indirect inside deeper =>
    cases target
    obtain rfl := List.self_eq_append_right.mp whole
    cases taken
    rw [List.append_nil]
    exact ⟨assigns, stands⟩

variable {recognised : Value → Bool} {plans : Plans} {entry : Entry}

/-- Where a chain of routes comes to a leaf that no value tells, in a value whose tags are earned,
the search stands at the leaf. It starts at the definition of a name, or behind a choice. -/
theorem LeafAt.stands (strict : context.settings = .strict) (sound : context.Sound (.named root))
    (indirect : leaf.isObject context.definitions = false)
    (meets : ∀ entry routes, plans.lookup entry = some routes → ∀ route ∈ routes,
      entry.Meets context.definitions leaf (some route))
    (leafAt : LeafAt recognised plans entry value place part)
    (keyed : value.Throughout Value.Keyed) (earned : value.Throughout context.Earned)
    (assigns : (Schema.named root).Assigns context.definitions position (.named entry.ref))
    (stands : entry.ambiguous = false →
      Stands context root position (context.definitions entry.ref) value) :
    Stands context root (position ++ place) (.named leaf) part := by
  induction leafAt generalizing position with
  | here plan member steps goal known =>
    have met : Meets context.definitions leaf _ _ _ _ _ := meets _ _ plan _ member
    obtain ⟨_, found⟩ := met.arrives strict sound (List.nil_append _).symm steps keyed
      (assigns.facet Schema.definition_mem_facets) stands
    rw [goal] at found
    exact found indirect
  | @onward entry next routes route value middle part place further plan member steps continues tag
      rest ih =>
    have met : Meets context.definitions leaf _ _ _ _ _ := meets _ _ plan _ member
    obtain ⟨inner, found⟩ := met.arrives strict sound (List.nil_append _).symm steps keyed
      (assigns.facet Schema.definition_mem_facets) stands
    rw [Goal.name_of_entry? continues] at inner found
    rw [← List.append_assoc]
    refine ih (steps.throughout keyed) (steps.throughout earned) inner (fun single => ?_)
    have sound := sound.reached inner.reaches
    cases goal : route.goal with
    | leaf =>
      rw [goal] at continues
      cases continues
    | tagged ref =>
      rw [goal] at continues
      cases continues
      have granted := (steps.throughout earned).here (.named ref) (tag ref goal)
      exact .vouched (granted.definition sound)
    | shaped ref behind =>
      rw [goal] at continues found
      cases continues
      exact (found single).definition sound

/-- At the end of a chain of routes the leaf is recognised. -/
theorem LeafAt.known (leafAt : LeafAt recognised plans entry value place part) :
    recognised part = true := by
  induction leafAt with
  | here plan member steps goal known => exact known
  | onward plan member steps continues tag rest ih => exact ih

end

end Conform.Traversal

namespace Conform.Context

open Traversal
open Violation (AnyAmbiguous)

variable {context : Context} {root leaf : NamedRef} {names : Nat} {traversal : Traversal}
  {value answer part : Value} {place : List Value.Position}

/-- A name that is directly an object is told by its tag. -/
theorem indirect_of_untold {ref : NamedRef} (untold : ref.isTold context.definitions = false) :
    ref.isObject context.definitions = false := by
  by_contra object
  rw [Bool.not_eq_false] at object
  obtain ⟨node, properties, additional, found⟩ := NamedRef.isObject_iff.mp object
  rw [NamedRef.isTold, found] at untold
  cases untold

/-- What passes for an instance of a name, with earned tags, was granted by the name or accepted by
its check, when there is one. -/
theorem granted_of_isA (strict : context.settings = .strict) {ref : NamedRef} {limit : Nat}
    {origin : Identity} {told : Option Bool} (keyed : value.Throughout Value.Keyed)
    (earned : context.Earned value)
    (asked : ref.isA context.definitions context.surroundings limit origin value = .ok told)
    (passes : told.getD true = true) :
    context.Granted (.named ref) value ∨ ref.isTold context.definitions = false := by
  unfold NamedRef.isA at asked
  split at asked
  · cases asked
    exact .inl (earned _ passes)
  · cases asked
    exact .inl (earned _ passes)
  · next node object array =>
    split at asked
    · next scalar =>
      left
      split at asked
      · cases asked
      · next verdict ran =>
        cases asked
        cases verdict with
        | rejected violations => cases passes
        | accepted answer =>
          have ended :
              context.attempt limit (.named ref) origin value = .ok (.accepted answer) := by
            rw [attempt, strict]
            exact ran
          exact ⟨value, answer, keyed, .refl value, limit, origin, ended⟩
    · next plain =>
      right
      unfold NamedRef.isTold
      split
      · next found => exact absurd found (object _ _ _)
      · next found => exact absurd found (array _ _ _ _)
      · exact Bool.not_eq_true _ ▸ plain

/-- Where a leaf position of an answer is told neither by a tag nor by a check, the leaf granted
what is there, or an option beside it did. -/
theorem granted_of_leafAt (strict : context.settings = .strict)
    (sound : context.Sound (.named root))
    (finite : ∃ known : List NamedRef, known.length ≤ names ∧
      Knows context.definitions known (.named root))
    (compiled : between context.definitions names root leaf = .ok traversal)
    (keyed : value.Throughout Value.Keyed) (earned : value.Throughout context.Earned)
    (accepted : context.Judges (.named root) value (.accepted answer))
    {recognised : Value → Bool}
    (leafAt : LeafAt recognised traversal.plans traversal.start answer place part)
    (untold : leaf.isTold context.definitions = false) :
    context.Granted (.named leaf) part ∨ Beside context root place (.named leaf) part := by
  have granted := granted_of_judged strict sound keyed accepted
  obtain ⟨known, bounded, knows⟩ := finite
  by_cases same : root = leaf
  · subst same
    rw [between, if_pos rfl] at compiled
    cases compiled
    have single : ∀ {entry : Entry} {routes : List Route} {route : Route},
        List.lookup entry [((⟨root, false⟩ : Entry), [(⟨[], .leaf⟩ : Route)])] = some routes →
        route ∈ routes → route = ⟨[], .leaf⟩ :=
      fun plan member => List.mem_singleton.mp (eq_of_lookup_alone plan ▸ member)
    cases leafAt with
    | here plan member steps goal known =>
      rw [single plan member] at steps
      cases steps
      exact .inl granted
    | onward plan member steps continues tag rest =>
      rw [single plan member] at continues
      cases continues
  · obtain ⟨scheduled, plans, made, rfl⟩ := plans_of_between bounded knows same compiled
    have stands : Stands context root [] (context.definitions root) answer :=
      .vouched (granted.definition sound)
    have found := leafAt.stands strict sound (indirect_of_untold untold)
      (fun entry routes plan route member => (made.meets_live plan).2 route member)
      (answer_restates strict sound keyed accepted).keyed
      (answer_earned strict sound keyed earned accepted) .here (fun _ => stands)
    cases found with
    | vouched vouched => exact .inl (vouched.granted rfl)
    | beside beside _ => exact .inr beside

/-- A leaf is reached from the root of a traversal. -/
theorem reaches_of_between
    (finite : ∃ known : List NamedRef, known.length ≤ names ∧
      Knows context.definitions known (.named root))
    (compiled : between context.definitions names root leaf = .ok traversal) :
    (Schema.named root).Reaches context.definitions (.named leaf) := by
  obtain ⟨known, bounded, knows⟩ := finite
  by_cases same : root = leaf
  · rw [same]
    exact .refl
  · rcases between_answers bounded knows same with ⟨_, path, refused⟩ | ⟨_, none | some⟩
    · cases refused.symm.trans compiled
    · cases none.2.symm.trans compiled
    · obtain ⟨⟨entry, explored, steps, meets⟩, _⟩ := some
      have definition : (Schema.named entry.ref).Reaches context.definitions
          (context.definitions entry.ref) :=
        .single (List.mem_append_left _ Schema.definition_mem_facets)
      have inside : (context.definitions entry.ref).Reaches context.definitions (.named leaf) :=
        Traversal.Meets.reaches_goal meets
      exact explored.reaches.trans (definition.trans inside)

/-- The validator of a name accepts a value, when it judges it once more, or else refuses it only
because several options match. It accepts a scalar, and returns when the name is grounded. -/
structure IsInstance (context : Context) (ref : NamedRef) (value : Value) : Prop where
  scalar : value.tags? = none → ∃ answer, context.Judges (.named ref) value (.accepted answer)
  ambiguous : ∀ violations, context.Judges (.named ref) value (.rejected violations) →
    AnyAmbiguous violations
  returns : (Schema.named ref).Grounded context.definitions →
    ∃ verdict, context.Judges (.named ref) value verdict

/-- What was granted is an instance. -/
theorem Granted.isInstance (strict : context.settings = .strict) {ref : NamedRef}
    (sound : context.Sound (.named ref)) (granted : context.Granted (.named ref) value)
    (keyed : value.Throughout Value.Keyed) : context.IsInstance ref value := by
  obtain ⟨scalar, ambiguous⟩ := granted.judged strict sound keyed
  refine ⟨scalar, ambiguous, fun grounded => ?_⟩
  exact exists_judged sound grounded (fun lone => by rw [strict] at lone; cases lone)

/-- A call with what an option beside the leaf granted, when the leaf is not told. -/
def Mistaken (context : Context) (root leaf : NamedRef) (call : Call) : Prop :=
  leaf.isTold context.definitions = false ∧
    Beside context root call.position (.named leaf) call.argument

/-- Mapping an answer of the root by a transform that changes nothing returns the answer, and calls
the transform with what is at the leaf positions. -/
theorem map_unchanged (strict : context.settings = .strict) (sound : context.Sound (.named root))
    (finite : ∃ known : List NamedRef, known.length ≤ names ∧
      Knows context.definitions known (.named root))
    (compiled : between context.definitions names root leaf = .ok traversal)
    (accepted : context.Judges (.named root) value (.accepted answer)) :
    ∃ bound, ∀ limit, bound ≤ limit → ∀ fuel, bound ≤ fuel → ∀ origin, ∃ calls,
      traversal.map ⟨context.definitions, context.surroundings, limit⟩ unchanged fuel origin
        answer = .ok (.ok (answer, calls)) ∧
      ∀ call ∈ calls, LeafAt (context.recognises leaf) traversal.plans traversal.start answer
        call.position call.argument := by
  have inside := sound.reached (reaches_of_between finite compiled)
  obtain ⟨least, belongs⟩ := answer_belongs strict sound accepted
  obtain ⟨least', told⟩ := isA_of_sound strict inside
  obtain ⟨known, bounded, knows⟩ := finite
  have inward := compiled_of_between bounded knows compiled
  obtain ⟨rfl, rfl⟩ := ends_of_between compiled
  refine ⟨max (max least least') (2 * answer.depth + 2), fun limit much fuel enough origin => ?_⟩
  have sufficient : Enough traversal.plans fuel traversal.start answer := .inl (by omega)
  have recognises : Recognises ⟨context.definitions, context.surroundings, limit⟩ traversal.leaf
      traversal.plans (context.recognises traversal.leaf) :=
    ⟨told limit (by omega), inward.objects⟩
  have still := mapPlan_still recognises inward.descending sufficient
    (fun _ _ _ => rfl : Spares unchanged [] _) origin []
  obtain ⟨asked, checked, passes⟩ := belongs limit (by omega) origin
  refine ⟨_, map_of_mapPlan checked passes still, fun call member => ?_⟩
  obtain ⟨⟨place, part⟩, visited, rfl⟩ := List.mem_map.mp member
  exact (mem_visitsPlan_iff inward.descending sufficient).mp visited

/-- What is at a leaf position of an answer, for a value without tags, is an instance of the leaf,
or the leaf is not told and an option beside it granted what is there. -/
theorem isInstance_of_leafAt (strict : context.settings = .strict)
    (sound : context.Sound (.named root))
    (finite : ∃ known : List NamedRef, known.length ≤ names ∧
      Knows context.definitions known (.named root))
    (compiled : between context.definitions names root leaf = .ok traversal)
    (bare : value.Throughout Value.Bare)
    (accepted : context.Judges (.named root) value (.accepted answer))
    (leafAt : LeafAt (context.recognises leaf) traversal.plans traversal.start answer place part) :
    (leaf.isTold context.definitions = false ∧ Beside context root place (.named leaf) part) ∨
      context.IsInstance leaf part := by
  have keyed : value.Throughout Value.Keyed := fun part inside => (bare part inside).keyed
  have earned : value.Throughout context.Earned :=
    fun part inside => earned_of_untagged (bare part inside).untagged
  have keyed' := (answer_restates strict sound keyed accepted).keyed
  have at' := leafAt.at? keyed'
  have earned' := ((answer_earned strict sound keyed earned accepted).at? at').here
  have inside := sound.reached (reaches_of_between finite compiled)
  have of_granted : context.Granted (.named leaf) part → context.IsInstance leaf part :=
    fun granted => granted.isInstance strict inside (keyed'.at? at')
  obtain ⟨least, told⟩ := isA_of_sound strict inside
  obtain ⟨_, asked, same⟩ := told least (Nat.le_refl least) (.run 0) part
  rcases granted_of_isA strict (keyed'.at? at') earned' asked (same.trans leafAt.known) with
    granted | untold
  · exact .inr (of_granted granted)
  · rcases granted_of_leafAt strict sound finite compiled keyed earned accepted leafAt untold with
      granted | beside
    · exact .inr (of_granted granted)
    · exact .inl ⟨untold, beside⟩

/-- Mapping an answer of the root, for a value without tags, by a transform that changes nothing
returns the answer. The transform is called with instances of the leaf, unless the leaf is not told
and an option beside it granted what is there. -/
theorem map_calls_instances (strict : context.settings = .strict)
    (sound : context.Sound (.named root))
    (finite : ∃ known : List NamedRef, known.length ≤ names ∧
      Knows context.definitions known (.named root))
    (compiled : between context.definitions names root leaf = .ok traversal)
    (bare : value.Throughout Value.Bare)
    (accepted : context.Judges (.named root) value (.accepted answer)) :
    ∃ bound, ∀ limit, bound ≤ limit → ∀ fuel, bound ≤ fuel → ∀ origin, ∃ calls,
      traversal.map ⟨context.definitions, context.surroundings, limit⟩ unchanged fuel origin
        answer = .ok (.ok (answer, calls)) ∧
      ∀ call ∈ calls,
        context.Mistaken root leaf call ∨ context.IsInstance leaf call.argument := by
  obtain ⟨bound, mapped⟩ := map_unchanged strict sound finite compiled accepted
  refine ⟨bound, fun limit much fuel enough origin => ?_⟩
  obtain ⟨calls, returned, leafAt⟩ := mapped limit much fuel enough origin
  refine ⟨calls, returned, fun call member => ?_⟩
  exact isInstance_of_leafAt strict sound finite compiled bare accepted (leafAt call member)

/-- Whatever the mapping of an answer passes to a transform that changes nothing, the leaf's
validator accepts. -/
def SeesLeaves (context : Context) (names : Nat) (root leaf : NamedRef) (value : Value) : Prop :=
  ∀ traversal answer, between context.definitions names root leaf = .ok traversal →
    context.Judges (.named root) value (.accepted answer) →
    ∀ limit fuel origin result calls,
      traversal.map ⟨context.definitions, context.surroundings, limit⟩ unchanged fuel origin
        answer = .ok (.ok (result, calls)) →
      ∀ call ∈ calls, ∃ accepted, context.Judges (.named leaf) call.argument (.accepted accepted)

/-- One call with what the leaf's validator refuses is enough. -/
theorem not_seesLeaves_of_refused {limit fuel : Nat} {origin : Identity} {call : Call}
    {violations : List Violation} (sound : context.Sound (.named leaf))
    (compiled : between context.definitions names root leaf = .ok traversal)
    (accepted : context.Judges (.named root) value (.accepted answer))
    (mapped : traversal.map ⟨context.definitions, context.surroundings, limit⟩ unchanged fuel origin
      answer = .ok (.ok (answer, [call])))
    (refused : context.Judges (.named leaf) call.argument (.rejected violations)) :
    ¬ context.SeesLeaves names root leaf value := by
  intro sees
  obtain ⟨_, again⟩ := sees traversal answer compiled accepted limit fuel origin answer [call]
    mapped call (.head _)
  cases judged_alike sound again refused

end Conform.Context

namespace Conform.Shapes

open Traversal

/-- What the transform is called with is a circle. -/
theorem drawing_circle_instances :
    let context : Context := ⟨definitions, fun _ => none, .strict⟩
    ∃ traversal answer,
      between definitions 3 ⟨0, "Shape"⟩ ⟨1, "Circle"⟩ = .ok traversal ∧
      context.Judges shape drawing (.accepted answer) ∧
      ∃ bound, ∀ limit, bound ≤ limit → ∀ fuel, bound ≤ fuel → ∀ origin, ∃ calls,
        traversal.map ⟨context.definitions, context.surroundings, limit⟩ unchanged fuel origin
          answer = .ok (.ok (answer, calls)) ∧
        ∀ call ∈ calls, context.Mistaken ⟨0, "Shape"⟩ ⟨1, "Circle"⟩ call ∨
          context.IsInstance ⟨1, "Circle"⟩ call.argument := by
  intro context
  have bare : drawing.Throughout Value.Bare := by
    simp [drawing, Value.bare_iff, Value.Keyed, Fields.Distinct, Fields.keys, Value.tags,
      Value.tags?]
  obtain ⟨answer, ended⟩ : ∃ answer, context.attempt 20 shape (.run 3) drawing =
      .ok (.accepted answer) := ⟨_, rfl⟩
  obtain ⟨traversal, compiled⟩ :
      ∃ traversal, between definitions 3 ⟨0, "Shape"⟩ ⟨1, "Circle"⟩ = .ok traversal := ⟨_, rfl⟩
  exact ⟨traversal, answer, compiled, ⟨20, .run 3, ended⟩,
    context.map_calls_instances rfl (sound _ _ (.head _)) ⟨Shapes.names, Nat.le_refl 3, knows⟩
      compiled bare ⟨20, .run 3, ended⟩⟩

end Conform.Shapes

/-! ## Calls with what the leaf refuses

Goods that were judged thrice are refused when they are judged again, and no tag or check tells
a note from the null that a letter has instead.
-/

namespace Conform.Parcels

open Traversal

/-- Goods, which are judged thrice. -/
def goods : NamedRef :=
  ⟨2, "Goods"⟩

/-- A crate of goods. -/
def crate : NamedRef :=
  ⟨3, "Crate"⟩

/-- A note in words or by number. -/
def note : NamedRef :=
  ⟨4, "Note"⟩

/-- A letter, with a note or none. -/
def letter : NamedRef :=
  ⟨5, "Letter"⟩

/-- What the names stand for. -/
def definitions (ref : NamedRef) : Schema :=
  match ref.key with
  | 2 => Twins.thrice
  | 3 => .object 20 [⟨"goods", true, none, .named goods⟩] .keep
  | 4 => .union 21 [.string 22 {}, .number 23 {}]
  | 5 => .object 24 [⟨"note", true, none, .union 25 [.named note, .null]⟩] .keep
  | _ => Twins.definitions ref

/-- All nodes that crates and letters reach. -/
def nodes : List Schema :=
  [.named crate, .object 20 [⟨"goods", true, none, .named goods⟩] .keep, .named goods,
    Twins.thrice, Twins.either, Twins.first, Twins.second, .object 8 [] .keep, .object 9 [] .keep,
    .named letter, .object 24 [⟨"note", true, none, .union 25 [.named note, .null]⟩] .keep,
    .union 25 [.named note, .null], .named note, .union 21 [.string 22 {}, .number 23 {}],
    .string 22 {}, .number 23 {}, .null]

/-- A crate of anything. -/
def packed : Value :=
  .object (.run 0) [("goods", .object (.run 1) [] [])] []

/-- A letter without a note. -/
def blank : Value :=
  .object (.run 0) [("note", .null)] []

/-- What was in the crate, judged thrice. -/
def delivered : Value :=
  .object ((((Identity.run 3).part 0).part 0).part 3) []
    [.named ⟨0, "First"⟩, .named ⟨1, "Second"⟩, .named goods]

/-- The way from crates to goods. -/
def contents : Traversal :=
  ⟨crate, goods, [(⟨crate, false⟩, [⟨[.property "goods"], .leaf⟩])]⟩

/-- The way from letters to notes. -/
def notes : Traversal :=
  ⟨letter, note, [(⟨letter, false⟩, [⟨[.property "note"], .leaf⟩])]⟩

/-- The goods are refused as ambiguous, and the null passes for a note. -/
theorem not_seesLeaves :
    let context : Context := ⟨definitions, fun _ => none, .strict⟩
    (context.Sound (.named crate) ∧ packed.Throughout Value.Bare ∧
        ¬ context.SeesLeaves 4 crate goods packed) ∧
      (context.Sound (.named letter) ∧ blank.Throughout Value.Bare ∧
        ¬ context.SeesLeaves 2 letter note blank) := by
  intro context
  have sound : ∀ schema ∈ nodes, context.Sound schema := fun schema member =>
    Schema.throughout_of_closed nodes (by decide +kernel) (by
      simp [nodes, Schema.wellFormed_iff, Schema.DistinctNames, Schema.KnownFormats, Twins.thrice,
        Twins.either, Twins.first, Twins.second, Property.names]) member
  have bare : packed.Throughout Value.Bare := by
    simp [packed, Value.bare_iff, Value.Keyed, Fields.Distinct, Fields.keys, Value.tags,
      Value.tags?]
  have bare' : blank.Throughout Value.Bare := by
    simp [blank, Value.bare_iff, Value.Keyed, Fields.Distinct, Fields.keys, Value.tags, Value.tags?]
  refine ⟨⟨sound _ (by decide +kernel), bare, ?_⟩, sound _ (by decide +kernel), bare', ?_⟩
  · have compiled : between definitions 4 crate goods = .ok contents := by
      with_unfolding_all rfl
    have accepted : context.attempt 20 (.named crate) (.run 3) packed =
        .ok (.accepted (.object (.run 3) [("goods", delivered)] [.named crate])) := by
      with_unfolding_all rfl
    have mapped : contents.map ⟨definitions, context.surroundings, 20⟩ unchanged 20 (.run 4)
        (.object (.run 3) [("goods", delivered)] [.named crate]) =
          .ok (.ok (.object (.run 3) [("goods", delivered)] [.named crate],
            [⟨[.key "goods"], delivered, delivered⟩])) := by
      with_unfolding_all rfl
    have refused : context.attempt 20 (.named goods) (.run 4) delivered =
        .ok (.rejected [.group [] (.component 2) [.here (.manyPreferred [1, 2])]]) := by
      with_unfolding_all rfl
    exact Context.not_seesLeaves_of_refused (sound _ (by decide +kernel)) compiled
      ⟨_, _, accepted⟩ mapped ⟨_, _, refused⟩
  · have compiled : between definitions 2 letter note = .ok notes := by
      with_unfolding_all rfl
    have accepted : context.attempt 20 (.named letter) (.run 3) blank =
        .ok (.accepted (.object (.run 3) [("note", .null)] [.named letter])) := by
      with_unfolding_all rfl
    have mapped : notes.map ⟨definitions, context.surroundings, 20⟩ unchanged 20 (.run 4)
        (.object (.run 3) [("note", .null)] [.named letter]) =
          .ok (.ok (.object (.run 3) [("note", .null)] [.named letter],
            [⟨[.key "note"], .null, .null⟩])) := by
      with_unfolding_all rfl
    obtain ⟨violations, refused⟩ : ∃ violations, context.attempt 20 (.named note) (.run 4) .null =
        .ok (.rejected violations) := ⟨_, by with_unfolding_all rfl⟩
    exact Context.not_seesLeaves_of_refused (sound _ (by decide +kernel)) compiled
      ⟨_, _, accepted⟩ mapped ⟨_, _, refused⟩

end Conform.Parcels
