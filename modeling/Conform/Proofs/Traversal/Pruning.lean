import Conform.Traversal.Plan
import Mathlib.Data.List.Infix
import Mathlib.Data.List.Nodup
import Mathlib.Data.List.Perm.Subperm
import Mathlib.Logic.Relation

/-!
# Which plans stay

The live plans are looked for in sweeps over all plans. A sweep uses what it has found itself,
so what it adds depends on the order of the plans, and every sweep may take them in an order
of its own. It ends when a sweep adds nothing.

What is found is always live, and whatever a sweep that adds nothing passes over has no route
to the leaf or to what is found. So the loop ends with the plans that a chain of routes leads
from to the leaf, in whatever order it looks at them: plans in a circle die together when no
chain leaves the circle for the leaf. Every sweep but the last adds a plan, which bounds the
loop by the count of plans.
-/

namespace Conform.Traversal

/-- A route leads from the plan of one entry to the next entry. -/
def LeadsOn (plans : Plans) (entry next : Entry) : Prop :=
  ∃ routes, (entry, routes) ∈ plans ∧ ∃ route ∈ routes, route.goal.entry? = some next

/-- A finite chain of routes leads from the entry to a route whose goal is the leaf. -/
def ReachesLeaf (plans : Plans) (entry : Entry) : Prop :=
  ∃ last, Relation.ReflTransGen (LeadsOn plans) entry last ∧
    ∃ routes, (last, routes) ∈ plans ∧ ∃ route ∈ routes, route.goal = .leaf

/-- A chain of routes leads from the entry to the leaf. -/
inductive Live (plans : Plans) : Entry → Prop
  | intro {entry : Entry} {routes : List Route} {route : Route} (plan : (entry, routes) ∈ plans)
      (member : route ∈ routes)
      (leads : ∀ next, route.goal.entry? = some next → Live plans next) : Live plans entry

/-- The loop of sweeps without a bound, when sweep `pass` takes the plans in the order
`orders pass`. -/
inductive Sweeps (orders : Nat → Plans) : (pass : Nat) → List Entry → List Entry → Prop
  | last {pass : Nat} {found : List Entry}
      (still : (sweep (orders pass) found).length = found.length) :
      Sweeps orders pass found (sweep (orders pass) found)
  | more {pass : Nat} {found result : List Entry}
      (grown : (sweep (orders pass) found).length ≠ found.length)
      (rest : Sweeps orders (pass + 1) (sweep (orders pass) found) result) :
      Sweeps orders pass found result

section

variable {plans : Plans} {entry : Entry} {entries found : List Entry} {route : Route}

/-- A route leads to entries when the one that it goes on to, if any, is among them. -/
theorem leadsTo_iff :
    leadsTo entries route = true ↔ ∀ next, route.goal.entry? = some next → next ∈ entries := by
  unfold leadsTo
  cases route.goal.entry? <;> simp

/-- Only the leaf has no plan that continues a route to it. -/
theorem Goal.entry?_eq_none_iff {goal : Goal} : goal.entry? = none ↔ goal = .leaf := by
  cases goal <;> simp [Goal.entry?]

/-! ## Chains -/

/-- A live entry has a plan. -/
theorem Live.planned (live : Live plans entry) : ∃ routes, (entry, routes) ∈ plans := by
  cases live with
  | intro plan member leads => exact ⟨_, plan⟩

/-- An entry is live when a finite chain of routes leads from it to the leaf. -/
theorem live_iff_reachesLeaf : Live plans entry ↔ ReachesLeaf plans entry := by
  constructor
  · intro live
    induction live with
    | @intro entry routes route plan member leads ih =>
      cases target : route.goal.entry? with
      | none =>
        exact ⟨entry, .refl, routes, plan, route, member, Goal.entry?_eq_none_iff.mp target⟩
      | some next =>
        obtain ⟨last, further, ends⟩ := ih next target
        exact ⟨last, .head ⟨routes, plan, route, member, target⟩ further, ends⟩
  · rintro ⟨last, further, routes, plan, route, member, goal⟩
    induction further using Relation.ReflTransGen.head_induction_on with
    | refl =>
      refine .intro plan member (fun next continues => ?_)
      rw [goal] at continues
      cases continues
    | head leads _ ih =>
      obtain ⟨routes, plan, route, member, target⟩ := leads
      refine .intro plan member (fun next continues => ?_)
      obtain rfl := Option.some.inj (target.symm.trans continues)
      exact ih

/-! ## One sweep -/

/-- Looking at a plan finds it or nothing. -/
theorem mem_visit_iff {plan : Entry × List Route} :
    entry ∈ visit found plan ↔
      entry ∈ found ∨ (entry = plan.1 ∧ plan.2.any (leadsTo found) = true) := by
  unfold visit
  split <;> rename_i reaches
  · rw [List.mem_insert_iff, and_iff_left reaches, or_comm]
  · rw [or_iff_left (fun reached => reaches reached.2)]

/-- Looking at a plan keeps what is found. -/
theorem suffix_visit (found : List Entry) (plan : Entry × List Route) :
    found <:+ visit found plan := by
  unfold visit
  split
  · exact List.suffix_insert plan.1 found
  · exact List.suffix_rfl

/-- A sweep keeps what is found. -/
theorem suffix_sweep (plans : Plans) (found : List Entry) : found <:+ sweep plans found := by
  induction plans generalizing found with
  | nil => exact List.suffix_rfl
  | cons plan rest ih => exact (suffix_visit found plan).trans (ih (visit found plan))

/-- A sweep finds every entry once. -/
theorem nodup_sweep (order : Plans) (distinct : found.Nodup) : (sweep order found).Nodup := by
  induction order generalizing found with
  | nil => exact distinct
  | cons plan rest ih =>
    refine ih ?_
    unfold visit
    split
    · exact distinct.insert
    · exact distinct

/-- A sweep over live plans and others finds only live ones. -/
theorem live_of_mem_sweep {order : Plans} (inside : order ⊆ plans)
    (sound : ∀ entry ∈ found, Live plans entry) :
    ∀ entry ∈ sweep order found, Live plans entry := by
  induction order generalizing found with
  | nil => exact sound
  | cons plan rest ih =>
    refine ih (List.subset_of_cons_subset inside) (fun entry member => ?_)
    obtain old | ⟨rfl, reaches⟩ := mem_visit_iff.mp member
    · exact sound entry old
    · obtain ⟨route, listed, leads⟩ := List.any_eq_true.mp reaches
      exact .intro (inside List.mem_cons_self) listed
        (fun next continues => sound next (leadsTo_iff.mp leads next continues))

/-- Whatever a sweep that adds nothing passes over has no route to what is found. -/
theorem mem_of_sweep_still {order : Plans}
    (still : (sweep order found).length = found.length) :
    ∀ plan ∈ order, plan.2.any (leadsTo found) = true → plan.1 ∈ found := by
  induction order with
  | nil => simp
  | cons first rest ih =>
    have kept : found <:+ visit found first := suffix_visit found first
    have later : visit found first <:+ sweep (first :: rest) found := suffix_sweep rest _
    have same : visit found first = found :=
      (kept.eq_of_length_le (still ▸ later.length_le)).symm
    have still' : (sweep rest found).length = found.length := by
      rw [← still, sweep, sweep, List.foldl_cons, same]
    intro plan member reaches
    obtain rfl | member := List.mem_cons.mp member
    · rw [← same]
      exact mem_visit_iff.mpr (.inr ⟨rfl, reaches⟩)
    · exact ih still' plan member reaches

/-! ## The loop of sweeps -/

/-- What holds between the sweeps: what is found is found once, and live. -/
structure Partial (plans : Plans) (found : List Entry) : Prop where
  distinct : found.Nodup
  sound : ∀ entry ∈ found, Live plans entry

/-- Before the first sweep nothing is found, which is right so far. -/
theorem Partial.initial (plans : Plans) : Partial plans [] :=
  ⟨List.nodup_nil, by simp⟩

/-- A sweep finds live entries, each once, in whatever order it takes the plans. -/
theorem Partial.sweep {order : Plans} (part : Partial plans found) (permuted : order.Perm plans) :
    Partial plans (sweep order found) :=
  ⟨nodup_sweep order part.distinct, live_of_mem_sweep permuted.subset part.sound⟩

/-- There is no more to find than there are plans. -/
theorem Partial.length_le (part : Partial plans found) : found.length ≤ plans.length := by
  have inside : found ⊆ plans.map Prod.fst := by
    intro entry member
    obtain ⟨routes, plan⟩ := (part.sound entry member).planned
    exact List.mem_map_of_mem plan
  simpa using (List.Nodup.subperm part.distinct inside).length_le

/-- Nothing more is found when every plan with a route to what is found is itself found: then
all live plans are. -/
theorem Live.mem_of_closed (live : Live plans entry)
    (closed : ∀ plan ∈ plans, plan.2.any (leadsTo found) = true → plan.1 ∈ found) :
    entry ∈ found := by
  induction live with
  | intro plan member leads ih =>
    exact closed _ plan (List.any_eq_true.mpr ⟨_, member, leadsTo_iff.mpr ih⟩)

variable {orders : Nat → Plans} {pass : Nat} {result : List Entry}

/-- The loop ends with the live plans, in whatever order each sweep takes them. -/
theorem Sweeps.mem_iff (permuted : ∀ pass, (orders pass).Perm plans)
    (sweeps : Sweeps orders pass found result) (part : Partial plans found) :
    entry ∈ result ↔ Live plans entry := by
  induction sweeps with
  | @last pass found still =>
    refine ⟨(part.sweep (permuted pass)).sound entry, fun live => ?_⟩
    refine (suffix_sweep _ found).subset (live.mem_of_closed (fun plan member => ?_))
    exact mem_of_sweep_still still plan ((permuted pass).mem_iff.mpr member)
  | @more pass found result grown rest ih => exact ih (part.sweep (permuted pass))

/-- A sweep that adds something adds at least one plan. -/
theorem length_lt_of_grown {order : Plans}
    (grown : (sweep order found).length ≠ found.length) :
    found.length < (sweep order found).length :=
  Nat.lt_of_le_of_ne (suffix_sweep order found).length_le grown.symm

/-- The loop ends, in whatever order each sweep takes the plans. -/
theorem Partial.sweeps (permuted : ∀ pass, (orders pass).Perm plans) (part : Partial plans found) :
    ∃ result, Sweeps orders pass found result := by
  -- every sweep but the last leaves less room between what is found and all plans
  induction room : plans.length - found.length using Nat.strongRecOn
    generalizing found pass with
  | _ room ih =>
    by_cases still : (Traversal.sweep (orders pass) found).length = found.length
    · exact ⟨_, .last still⟩
    · have further := part.sweep (permuted pass)
      have bound := further.length_le
      have more := length_lt_of_grown still
      obtain ⟨result, rest⟩ : ∃ result,
          Sweeps orders (pass + 1) (Traversal.sweep (orders pass) found) result :=
        ih _ (by omega) further rfl
      exact ⟨result, .more still rest⟩

/-- A loop that may sweep once more than there are plans to find does what the loop without a
bound does. -/
theorem Partial.sweepAll (part : Partial plans found) {fuel : Nat}
    (enough : plans.length < fuel + found.length) :
    Sweeps (fun _ => plans) pass found (sweepAll plans fuel found) := by
  induction fuel generalizing found pass with
  | zero =>
    have bound := part.length_le
    omega
  | succ fuel ih =>
    rw [Traversal.sweepAll]
    split
    · rename_i still
      exact .last still
    · rename_i grown
      have more := length_lt_of_grown grown
      exact .more grown (ih (part.sweep (List.Perm.refl plans)) (by omega))

/-- The live plans are found. -/
theorem mem_liveEntries_iff : entry ∈ liveEntries plans ↔ Live plans entry := by
  have part := Partial.initial plans
  have sweeps : Sweeps (fun _ => plans) 0 [] (liveEntries plans) :=
    part.sweepAll (by simp)
  exact sweeps.mem_iff (fun _ => List.Perm.refl plans) part

/-! ## The plans that stay -/

/-- Which plans and routes stay depends only on which plans are listed. -/
theorem retain_congr {others : List Entry} (same : ∀ entry, entry ∈ entries ↔ entry ∈ others)
    (plans : Plans) : retain entries plans = retain others plans := by
  have routes : leadsTo entries = leadsTo others := by
    funext route
    rw [Bool.eq_iff_iff, leadsTo_iff, leadsTo_iff]
    simp only [same]
  have listed : ∀ entry, entries.contains entry = others.contains entry := by
    intro entry
    rw [Bool.eq_iff_iff, List.contains_iff_mem, List.contains_iff_mem, same]
  simp only [retain, routes, listed]

/-- The live plans stay, each with its routes to the leaf or to live plans. -/
theorem mem_live_iff {routes : List Route} :
    (entry, routes) ∈ live plans ↔
      ∃ all, (entry, all) ∈ plans ∧ Live plans entry ∧
        routes = all.filter (leadsTo (liveEntries plans)) := by
  simp only [live, retain, List.mem_map, List.mem_filter, List.contains_iff_mem,
    mem_liveEntries_iff]
  constructor
  · rintro ⟨⟨entry, all⟩, ⟨plan, stays⟩, same⟩
    cases same
    exact ⟨all, plan, stays, rfl⟩
  · rintro ⟨all, plan, stays, rfl⟩
    exact ⟨(entry, all), ⟨plan, stays⟩, rfl⟩

/-- The entries of the plans that stay are the live ones. -/
theorem mem_keys_live_iff : entry ∈ (live plans).map Prod.fst ↔ Live plans entry := by
  constructor
  · intro member
    obtain ⟨⟨entry, routes⟩, stays, rfl⟩ := List.mem_map.mp member
    obtain ⟨_, _, live, _⟩ := mem_live_iff.mp stays
    exact live
  · intro live
    obtain ⟨routes, plan⟩ := live.planned
    exact List.mem_map_of_mem (f := Prod.fst) (mem_live_iff.mpr ⟨routes, plan, live, rfl⟩)

/-- The plans that stay have distinct entries when all plans do. -/
theorem nodup_live (distinct : (plans.map Prod.fst).Nodup) :
    ((live plans).map Prod.fst).Nodup := by
  have same : (live plans).map Prod.fst =
      (plans.filter (fun plan => (liveEntries plans).contains plan.1)).map Prod.fst := by
    simp [live, retain]
  rw [same]
  exact distinct.sublist (List.Sublist.map _ List.filter_sublist)

/-- A chain to the leaf stays whole. -/
theorem Live.stays (live : Live plans entry) : Live (Traversal.live plans) entry := by
  induction live with
  | @intro entry routes route plan member leads ih =>
    have live : Live plans entry := .intro plan member leads
    refine .intro (mem_live_iff.mpr ⟨routes, plan, live, rfl⟩) (List.mem_filter.mpr ⟨member, ?_⟩) ih
    exact leadsTo_iff.mpr (fun next continues => mem_liveEntries_iff.mpr (leads next continues))

/-- A route of a plan that stays is to the leaf or to a plan that stays. -/
theorem live_next {routes : List Route} {next : Entry} (plan : (entry, routes) ∈ live plans)
    (member : route ∈ routes) (continues : route.goal.entry? = some next) : Live plans next := by
  obtain ⟨all, _, _, rfl⟩ := mem_live_iff.mp plan
  exact mem_liveEntries_iff.mp (leadsTo_iff.mp (List.mem_filter.mp member).2 next continues)

/-- An entry has a plan that stays when it is live. -/
theorem lookup_live_isSome (live : Live plans entry) :
    ((Traversal.live plans).lookup entry).isSome = true := by
  obtain ⟨plan, stays, rfl⟩ := List.mem_map.mp (mem_keys_live_iff.mpr live)
  exact List.lookup_isSome_iff.mpr ⟨plan, stays, beq_self_eq_true _⟩

/-- The plans of a traversal between different names are live ones. -/
theorem plans_eq_live {definitions : Definitions} {names : Nat} {root leaf : NamedRef}
    {traversal : Traversal} (other : root ≠ leaf)
    (compiled : between definitions names root leaf = .ok traversal) :
    ∃ plans, traversal.plans = live plans := by
  rw [between, if_neg other] at compiled
  split at compiled
  · cases compiled
  · rename_i plans made
    simp only at compiled
    split at compiled
    · cases compiled
      exact ⟨plans, rfl⟩
    · cases compiled

/-- Looking for the live plans ends, and the plans that stay are the same in whatever order each
sweep takes them: those that a finite chain of routes leads from to the leaf, each with its routes
to the leaf or to plans that stay, in their order. So every route of a traversal is to the leaf or
to a plan that is there and from which a chain leads to the leaf. -/
theorem pruning_exact (plans : Plans) (orders : Nat → Plans)
    (permuted : ∀ pass, (orders pass).Perm plans) :
    (∃ found, Sweeps orders 0 [] found) ∧
      (∀ found, Sweeps orders 0 [] found → retain found plans = live plans) ∧
      (∀ entry routes, (entry, routes) ∈ live plans ↔
        ∃ all, (entry, all) ∈ plans ∧ ReachesLeaf plans entry ∧
          routes = all.filter (leadsTo ((live plans).map Prod.fst))) ∧
      ∀ definitions names root leaf traversal,
        between definitions names root leaf = .ok traversal →
        ∀ entry routes, (entry, routes) ∈ traversal.plans → ∀ route ∈ routes, ∀ next,
          route.goal.entry? = some next →
            (traversal.plans.lookup next).isSome = true ∧ ReachesLeaf traversal.plans next := by
  have part := Partial.initial plans
  have kept : leadsTo ((live plans).map Prod.fst) = leadsTo (liveEntries plans) := by
    funext route
    rw [Bool.eq_iff_iff, leadsTo_iff, leadsTo_iff]
    simp only [mem_keys_live_iff, mem_liveEntries_iff]
  refine ⟨part.sweeps permuted, fun found sweeps => ?_, fun entry routes => ?_, ?_⟩
  · exact retain_congr
      (fun entry => (sweeps.mem_iff permuted part).trans mem_liveEntries_iff.symm) plans
  · rw [mem_live_iff, kept, live_iff_reachesLeaf]
  · intro definitions names root leaf traversal compiled entry routes plan route member next
      continues
    by_cases other : root = leaf
    · rw [between, if_pos other] at compiled
      cases compiled
      cases List.mem_singleton.mp plan
      cases List.mem_singleton.mp member
      cases continues
    · obtain ⟨all, live⟩ := plans_eq_live other compiled
      rw [live] at plan ⊢
      have next := live_next plan member continues
      exact ⟨lookup_live_isSome next, live_iff_reachesLeaf.mp next.stays⟩

end

end Conform.Traversal

/-! ## Two circles of plans -/

namespace Conform.Knots

open Traversal

/-- A book holds chapters, and a chapter pictures and its book again. Notes and the replies to
them lead to each other only. -/
def plans : Plans :=
  [(⟨⟨0, "Book"⟩, false⟩, [⟨[.property "note"], .tagged ⟨2, "Note"⟩⟩,
      ⟨[.property "chapters", .items], .tagged ⟨1, "Chapter"⟩⟩]),
    (⟨⟨1, "Chapter"⟩, false⟩, [⟨[.property "book"], .tagged ⟨0, "Book"⟩⟩,
      ⟨[.property "picture"], .leaf⟩]),
    (⟨⟨2, "Note"⟩, false⟩, [⟨[.property "reply"], .tagged ⟨3, "Reply"⟩⟩]),
    (⟨⟨3, "Reply"⟩, false⟩, [⟨[.property "note"], .tagged ⟨2, "Note"⟩⟩])]

/-- Every other sweep takes the plans backwards. -/
def orders (pass : Nat) : Plans :=
  if pass % 2 = 0 then plans else plans.reverse

/-- Books and chapters stay, without the notes. -/
theorem notes_pruned :
    (∀ pass, (orders pass).Perm plans) ∧
      (∃ found, Sweeps orders 0 [] found ∧ retain found plans =
        [(⟨⟨0, "Book"⟩, false⟩, [⟨[.property "chapters", .items], .tagged ⟨1, "Chapter"⟩⟩]),
          (⟨⟨1, "Chapter"⟩, false⟩, [⟨[.property "book"], .tagged ⟨0, "Book"⟩⟩,
            ⟨[.property "picture"], .leaf⟩])]) ∧
      ¬ ReachesLeaf plans ⟨⟨2, "Note"⟩, false⟩ := by
  have permuted : ∀ pass, (orders pass).Perm plans := by
    intro pass
    unfold orders
    split
    · exact List.Perm.refl plans
    · exact List.reverse_perm plans
  obtain ⟨⟨found, sweeps⟩, ordered, stays, _⟩ := pruning_exact plans orders permuted
  refine ⟨permuted, ⟨found, sweeps, (ordered found sweeps).trans (by decide +kernel)⟩, ?_⟩
  intro reaches
  have kept := (stays ⟨⟨2, "Note"⟩, false⟩ _).mpr ⟨_, .tail _ (.tail _ (.head _)), reaches, rfl⟩
  revert kept
  decide +kernel

end Conform.Knots
