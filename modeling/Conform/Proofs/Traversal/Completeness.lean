import Conform.Proofs.Attempt.Membership
import Conform.Proofs.Conformance.Acceptance
import Conform.Proofs.Traversal.Compiled
import Conform.Proofs.Traversal.Following
import Conform.Proofs.Traversal.Trails

/-!
# No leaf is missed

A part of an answer that carries the leaf's tag is at the end of a trail. A search that
follows the shortest trail comes to no name twice without a step in between, so it meets a
route wherever the trail crosses an object or a name that recurs, and the routes form a chain
to the part. So a mapping that changes nothing calls its transform there, unless the trail
leads through another instance of the leaf further up.
-/

namespace Conform.Traversal

section

variable {recognised : Value → Bool} {plans : Plans} {definitions : Definitions}
  {root leaf : NamedRef}

/-- A step leads on from where steps lead. -/
theorem StepsTo.append {steps further : List Step} {value part inner : Value}
    {place deeper : List Value.Position} (first : StepsTo steps value place part)
    (second : StepsTo further part deeper inner) :
    StepsTo (steps ++ further) value (place ++ deeper) inner := by
  induction first with
  | done => exact second
  | property there rest ih => exact .property there (ih second)
  | others member undeclared there rest ih => exact .others member undeclared there (ih second)
  | items member rest ih => exact .items member (ih second)

/-- The part under a key is reached by the step to that property. -/
theorem StepsTo.of_property {name : String} {value child : Value}
    (held : value.child? (.key name) = some child) (there : child.isUndefined = false) :
    StepsTo [.property name] value [.key name] child := by
  cases value with
  | object content fields tags =>
    have found : Fields.lookup name fields = child := by
      rw [lookup_eq, show Fields.get? name fields = some child from held]
      rfl
    subst found
    exact .property there .done
  | _ => cases held

/-- The part under an undeclared key is reached by the step to all of them. -/
theorem StepsTo.of_others {declared : List String} {key : String} {value child : Value}
    (undeclared : key ∉ declared) (held : value.child? (.key key) = some child)
    (there : child.isUndefined = false) :
    StepsTo [.others declared] value [.key key] child := by
  cases value with
  | object content fields tags => exact .others (Fields.mem_of_get? held) undeclared there .done
  | _ => cases held

/-- An item is reached by the step to all items. -/
theorem StepsTo.of_items {index : Nat} {value child : Value}
    (held : value.child? (.index index) = some child) :
    StepsTo [.items] value [.index index] child := by
  cases value with
  | array content items tags => exact .items held .done
  | _ => cases held

/-- No part strictly above a place carries the leaf's tag. -/
def Topmost (leaf : NamedRef) (value : Value) (place : List Value.Position) : Prop :=
  ∀ above, above <+: place → above ≠ place → ∀ holder, value.at? above = some holder →
    holder.hasTag (.named leaf) = false

/-- A place that is topmost in a value is so in the child on the way. -/
theorem Topmost.child {value child : Value} {position : Value.Position}
    {place : List Value.Position} (topmost : Topmost leaf value (position :: place))
    (held : value.child? position = some child) : Topmost leaf child place := by
  intro above inside apart holder found
  refine topmost (position :: above) ((List.prefix_cons_inj position).mpr inside) ?_ holder ?_
  · exact fun same => apart (List.cons.inj same).2
  · rw [Value.at?, held]
    exact found

/-- A search that follows a trail avoids the names from which no trail as short leads to the
same part. -/
def Roundabout (definitions : Definitions) (leaf : NamedRef) (size : Nat) (value : Value)
    (rest : List Value.Position) (ref : NamedRef) : Prop :=
  ∀ less ≤ size, ∀ target, ¬ Trail definitions leaf less (.named ref) value rest target

variable {scheduled : List Entry} {entry : Entry} {entered : Entered} {steps : List Step}
  {forked : Bool} {schema : Schema} {size : Nat} {origin value target : Value}
  {place rest : List Value.Position}

/-- A route that the search meets on the way is one of its plan. -/
theorem Underway.plan_of_meets (made : Underway definitions root leaf [] scheduled plans)
    (explored : entry.Explored definitions root leaf) {route : Route}
    (meets : entry.Meets definitions leaf (some route)) :
    ∃ routes, plans.lookup entry = some routes ∧ route ∈ routes := by
  obtain ⟨routes, plan⟩ := made.planned explored
  refine ⟨routes, lookup_eq_some_of_mem ?_ plan, ((made.faithful _ plan).routes route).mpr meets⟩
  have order := made.order
  rw [List.map_nil, List.append_nil] at order
  exact order ▸ made.distinct

/-- A trail from an object leads inwards. -/
theorem Trail.ne_nil {ref : NamedRef} (object : ref.isObject definitions = true)
    (trail : Trail definitions leaf size (definitions ref) value rest target) : rest ≠ [] := by
  obtain ⟨node, properties, additional, found⟩ := NamedRef.isObject_iff.mp object
  rw [found] at trail
  cases trail <;> exact List.cons_ne_nil _ _

/-- Of the trails from a name that is not directly an object, a shortest one goes on from its
definition, from where no trail as short leads back to the name. -/
theorem Trail.shortest {ref : NamedRef} (other : ref ≠ leaf)
    (indirect : ref.isObject definitions = false)
    (trail : Trail definitions leaf size (.named ref) value rest target) :
    ∃ less < size, Trail definitions leaf less (definitions ref) value rest target ∧
      Roundabout definitions leaf less value rest ref := by
  induction size using Nat.strongRecOn with
  | ind size ih =>
  cases trail with
  | leaf tag => exact absurd rfl other
  | object direct tag further => cases direct.symm.trans indirect
  | @name size _ _ _ _ _ further =>
    by_cases shortest : Roundabout definitions leaf size value rest ref
    · exact ⟨size, Nat.lt_succ_self size, further, shortest⟩
    · unfold Roundabout at shortest
      push Not at shortest
      obtain ⟨less, shorter, target', trail⟩ := shortest
      cases trail.leads.1.symm.trans further.leads.1
      obtain ⟨least, below, found⟩ := ih less (Nat.lt_succ_of_le shorter) trail
      exact ⟨least, by omega, found⟩

/-- Where a search follows a trail that leads past no other instance of the leaf, a chain of
routes leads to its end. -/
theorem Trail.leafAt (made : Underway definitions root leaf [] scheduled plans)
    (object : leaf.isObject definitions = true)
    (known : ∀ value, value.hasTag (.named leaf) = true → recognised value = true)
    (trail : Trail definitions leaf size schema value rest target)
    (topmost : Topmost leaf value rest)
    (following : Following definitions root leaf entry entered steps forked schema
      (Roundabout definitions leaf size value rest))
    (reached : StepsTo steps origin place value) :
    LeafAt recognised plans entry origin (place ++ rest) target := by
  induction size using Nat.strongRecOn generalizing schema value rest entry entered steps forked
    origin place with
  | ind size ih =>
  -- a route to another plan at the value, and the chain from there
  have onward : ∀ {route : Route} {next : Entry},
      Meets definitions leaf entered steps forked schema (some route) → route.steps = steps →
      route.goal.entry? = some next →
      (∀ ref, route.goal = .tagged ref → value.hasTag (.named ref) = true) →
      LeafAt recognised plans next value rest target →
      LeafAt recognised plans entry origin (place ++ rest) target := by
    intro route next meets same continues tag further
    obtain ⟨routes, plan, member⟩ :=
      made.plan_of_meets following.explored (following.onward _ meets)
    exact .onward plan member (same ▸ reached) continues tag further
  cases trail with
  | leaf tag =>
    have meets := following.onward _ (.leaf (.inr object))
    obtain ⟨routes, plan, member⟩ := made.plan_of_meets following.explored meets
    rw [List.append_nil]
    exact .here plan member reached rfl (known _ tag)
  | @object size ref _ _ _ direct tag further =>
    have other : ref ≠ leaf := by
      rintro rfl
      have above := topmost [] (List.nil_prefix) (Ne.symm (further.ne_nil direct)) value rfl
      exact absurd (tag.symm.trans above) (by decide)
    have meets : Meets definitions leaf entered steps forked (.named ref)
        (some ⟨steps, .tagged ref⟩) := .tagged other direct
    refine onward meets rfl rfl (fun ref goal => ?_) ?_
    · cases goal
      exact tag
    · exact ih size (Nat.lt_succ_self size) further topmost
        (.start ⟨ref, false⟩ (following.explored_next meets rfl)
          (fun indirect => absurd (direct.symm.trans indirect) (by decide))) .done
  | @name size ref _ _ _ indirect further =>
    have other : ref ≠ leaf := by
      rintro rfl
      exact absurd (object.symm.trans indirect) (by decide)
    have whole := Trail.name indirect further
    obtain ⟨less, shorter, trail, listed⟩ := whole.shortest other indirect
    have new : ¬ Roundabout definitions leaf (size + 1) value rest ref :=
      fun avoided => avoided (size + 1) (Nat.le_refl _) target whole
    obtain inside | meets := following.name other indirect new
      (fun ref avoided shorter' bound => avoided shorter' (by omega)) listed
    · exact ih less shorter trail topmost inside reached
    · refine onward meets rfl rfl (fun ref goal => nomatch goal) ?_
      exact ih less shorter trail topmost
        (.start ⟨ref, forked⟩ (following.explored_next meets rfl) (fun _ => listed)) .done
  | @property size _ _ _ property _ child _ deeper member held there further =>
    rw [List.append_cons]
    exact ih size (Nat.lt_succ_self size) further (topmost.child held)
      (following.step (fun _ => .property member)) (reached.append (.of_property held there))
  | @additional size _ _ _ key _ child _ deeper undeclared held there further =>
    rw [List.append_cons]
    exact ih size (Nat.lt_succ_self size) further (topmost.child held)
      (following.step (fun _ => .additional)) (reached.append (.of_others undeclared held there))
  | @items size _ _ _ _ index _ child _ deeper held there further =>
    rw [List.append_cons]
    exact ih size (Nat.lt_succ_self size) further (topmost.child held)
      (following.step (fun _ => .items)) (reached.append (.of_items held))
  | @option size _ _ option _ _ _ member further =>
    exact ih size (Nat.lt_succ_self size) further topmost
      (following.facet (fun _ => .option member)
        (fun ref avoided less bound => avoided less (by omega))) reached
  | @component size _ _ component _ _ _ member further =>
    exact ih size (Nat.lt_succ_self size) further topmost
      (following.facet (fun _ => .component member)
        (fun ref avoided less bound => avoided less (by omega))) reached

/-- A trail from the root that leads past no other instance of the leaf ends at a leaf position of
the plans that stay. -/
theorem Trail.leafAt_root (made : Underway definitions root leaf [] scheduled plans)
    (object : leaf.isObject definitions = true) (other : root ≠ leaf)
    (known : ∀ value, value.hasTag (.named leaf) = true → recognised value = true)
    (trail : Trail definitions leaf size (.named root) value rest target)
    (topmost : Topmost leaf value rest) :
    LeafAt recognised (live plans) ⟨root, false⟩ value rest target := by
  have distinct : (plans.map Prod.fst).Nodup := by
    have order := made.order
    rw [List.map_nil, List.append_nil] at order
    exact order ▸ made.distinct
  have entering : ∃ less, Trail definitions leaf less (definitions root) value rest target ∧
      (root.isObject definitions = false →
        Roundabout definitions leaf less value rest root) := by
    cases direct : root.isObject definitions with
    | false =>
      obtain ⟨less, _, further, shortest⟩ := trail.shortest other direct
      exact ⟨less, further, fun _ => shortest⟩
    | true =>
      cases trail with
      | leaf tag => exact absurd rfl other
      | object _ tag further => exact ⟨_, further, fun impossible => nomatch impossible⟩
      | name indirect further => cases direct.symm.trans indirect
  obtain ⟨less, further, listed⟩ := entering
  have leafAt := further.leafAt made object known topmost (.start ⟨root, false⟩ .refl listed) .done
  exact leafAt.kept distinct

end

end Conform.Traversal

namespace Conform.Context

open Traversal

variable {context : Context} {root leaf : NamedRef} {names : Nat} {traversal : Traversal}
  {value answer : Value}

/-- The leaf is told by its tag, like the names on the way. -/
theorem recognises_of_isObject (object : leaf.isObject context.definitions = true) {plans : Plans}
    (compiled : Compiled context.definitions plans) (limit : Nat) :
    Recognises ⟨context.definitions, context.surroundings, limit⟩ leaf plans
      (fun value => value.hasTag (.named leaf)) where
  leaf origin value := ⟨_, isA_of_isObject object origin value, rfl⟩
  objects := compiled.objects

/-- Mapping an answer of the root by a transform that changes nothing calls it at every part that
carries the tag of the leaf, which is directly an object, unless a part further up carries it as
well. -/
theorem map_calls_tagged_leaves (strict : context.settings = .strict)
    (sound : context.Sound (.named root)) (object : leaf.isObject context.definitions = true)
    (other : root ≠ leaf)
    (finite : ∃ known : List NamedRef, known.length ≤ names ∧
      Knows context.definitions known (.named root))
    (compiled : between context.definitions names root leaf = .ok traversal)
    (bare : value.Throughout Value.Bare)
    (accepted : context.Judges (.named root) value (.accepted answer)) :
    ∃ bound, ∀ limit, bound ≤ limit → ∀ fuel, bound ≤ fuel → ∀ origin, ∃ calls,
      traversal.map ⟨context.definitions, context.surroundings, limit⟩ unchanged fuel origin
        answer = .ok (.ok (answer, calls)) ∧
      ∀ place part, answer.at? place = some part → part.hasTag (.named leaf) = true →
        (∀ above, above <+: place → above ≠ place → ∀ holder, answer.at? above = some holder →
          holder.hasTag (.named leaf) = false) →
        ∃ call ∈ calls, call.position = place ∧ call.argument = part := by
  obtain ⟨known, bounded, knows⟩ := finite
  obtain ⟨scheduled, plans, made, rfl⟩ := plans_of_between bounded knows other compiled
  have inward := compiled_of_between bounded knows compiled
  have keyed : value.Throughout Value.Keyed := fun part inside => (bare part inside).keyed
  obtain ⟨_, sourced⟩ := answer_sourced strict sound object keyed accepted
  obtain ⟨least, belongs⟩ := answer_belongs strict sound accepted
  refine ⟨max least (2 * answer.depth + 2), fun limit much fuel enough origin => ?_⟩
  have sufficient : Enough (live plans) fuel ⟨root, false⟩ answer := .inl (by omega)
  have recognises := recognises_of_isObject object inward limit
  have still := mapPlan_still recognises inward.descending sufficient
    (fun _ _ _ => rfl : Spares unchanged [] _) origin []
  obtain ⟨asked, checked, passes⟩ := belongs limit (by omega) origin
  refine ⟨_, map_of_mapPlan checked passes still, fun place part found tag alone => ?_⟩
  obtain ⟨old, found', tag'⟩ | ⟨schema, single, size, target, trail⟩ := sourced place part found tag
  · -- the value carries no tags
    have untagged := (bare.at? found').here.untagged
    rw [Value.hasTag, untagged] at tag'
    cases tag'
  · cases List.mem_singleton.mp single
    cases trail.leads.1.symm.trans found
    have leafAt := trail.leafAt_root made object other (fun _ => id) alone
    have visited := (mem_visitsPlan_iff inward.descending sufficient).mpr leafAt
    exact ⟨_, List.mem_map_of_mem visited, rfl, rfl⟩

end Conform.Context

namespace Conform.Shapes

open Traversal

/-- The circle of the drawing is called. -/
theorem drawing_circle_called :
    let context : Context := ⟨definitions, fun _ => none, .strict⟩
    ∃ traversal answer,
      between definitions 3 ⟨0, "Shape"⟩ ⟨1, "Circle"⟩ = .ok traversal ∧
      context.Judges shape drawing (.accepted answer) ∧
      ∃ bound, ∀ limit, bound ≤ limit → ∀ fuel, bound ≤ fuel → ∀ origin, ∃ calls,
        traversal.map ⟨context.definitions, context.surroundings, limit⟩ unchanged fuel origin
          answer = .ok (.ok (answer, calls)) ∧
        ∀ place part, answer.at? place = some part →
          part.hasTag (.named ⟨1, "Circle"⟩) = true →
          (∀ above, above <+: place → above ≠ place → ∀ holder, answer.at? above = some holder →
            holder.hasTag (.named ⟨1, "Circle"⟩) = false) →
          ∃ call ∈ calls, call.position = place ∧ call.argument = part := by
  intro context
  have bare : drawing.Throughout Value.Bare := by
    simp [drawing, Value.bare_iff, Value.Keyed, Fields.Distinct, Fields.keys, Value.tags,
      Value.tags?]
  obtain ⟨answer, ended⟩ : ∃ answer, context.attempt 20 shape (.run 3) drawing =
      .ok (.accepted answer) := ⟨_, rfl⟩
  obtain ⟨traversal, compiled⟩ :
      ∃ traversal, between definitions 3 ⟨0, "Shape"⟩ ⟨1, "Circle"⟩ = .ok traversal := ⟨_, rfl⟩
  exact ⟨traversal, answer, compiled, ⟨20, .run 3, ended⟩,
    context.map_calls_tagged_leaves rfl (sound _ _ (.head _)) rfl (by decide)
      ⟨names, Nat.le_refl 3, knows⟩ compiled bare ⟨20, .run 3, ended⟩⟩

end Conform.Shapes
