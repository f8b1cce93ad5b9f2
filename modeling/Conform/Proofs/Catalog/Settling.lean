import Conform.Catalog
import Conform.Proofs.Attempt.Concord
import Conform.Proofs.Attempt.Ends

/-!
# Settling

A catalog repeats a run until it misses nothing. Every round binds one more of the declared
names, from the definitions as they stand, so there are rounds enough for a run that misses
nothing but declared names. The rounds change nothing about what is declared and defined.

What a validation answers is judged in surroundings where validators may have been made at
several moments. When those that the schema's names need were made in time, it returns
wherever the schema settles.
-/

namespace Conform

namespace Catalog

variable {catalog later : Catalog}

/-! ## What rounds leave behind -/

/-- One catalog has further validators than another, made from the same definitions, and
parts built, and is otherwise the same. -/
structure Filled (catalog later : Catalog) : Prop where
  same : later = { catalog with bound := later.bound, built := later.built }
  kept : ∀ {ref validator}, catalog.bound.lookup ref = some validator →
    later.bound.lookup ref = some validator
  fresh : ∀ {ref validator}, catalog.bound.lookup ref = none →
    later.bound.lookup ref = some validator → validator = .ofName catalog.meaning ref

namespace Filled

/-- A catalog is filled in by itself. -/
theorem refl (catalog : Catalog) : catalog.Filled catalog :=
  ⟨rfl, id, fun unbound found => by cases unbound.symm.trans found⟩

/-- Filling in declares no names. -/
theorem names (filled : catalog.Filled later) : later.names = catalog.names := by
  rw [filled.same]

/-- Filling in changes no meaning. -/
theorem meaning (filled : catalog.Filled later) : later.meaning = catalog.meaning := by
  rw [filled.same]
  rfl

/-- Filling in changes no format. -/
theorem format (filled : catalog.Filled later) :
    later.surroundings.format = catalog.surroundings.format := by
  rw [filled.same]
  rfl

/-- What is filled in twice is filled in. -/
theorem trans {last : Catalog} (first : catalog.Filled later) (second : later.Filled last) :
    catalog.Filled last where
  same := by rw [second.same, first.same]
  kept found := second.kept (first.kept found)
  fresh := by
    intro ref validator unbound found
    cases between : later.bound.lookup ref with
    | none => rw [second.fresh between found, first.meaning]
    | some other =>
      cases (second.kept between).symm.trans found
      exact first.fresh unbound between

end Filled

/-- What is looked up after a name is bound: its validator, or what was there before. -/
theorem lookup_bind (catalog : Catalog) (ref other : NamedRef) :
    (catalog.bind ref).2.bound.lookup other =
      if other = ref then some (catalog.bind ref).1 else catalog.bound.lookup other := by
  unfold bind
  split
  · next found =>
    split
    · next same => rw [same, found]
    · rfl
  · rw [List.lookup_cons]
    by_cases same : other = ref
    · rw [if_pos same, same, beq_self_eq_true]
    · rw [if_neg same, beq_false_of_ne same]

/-- A name that was not bound is bound by its definition. -/
theorem bind_fst_of_unbound {ref : NamedRef} (unbound : catalog.bound.lookup ref = none) :
    (catalog.bind ref).1 = .ofName catalog.meaning ref := by
  rw [bind, unbound]

/-- A name that was bound keeps its validator. -/
theorem bind_fst_of_bound {ref : NamedRef} {validator : Validator}
    (found : catalog.bound.lookup ref = some validator) : (catalog.bind ref).1 = validator := by
  rw [bind, found]

/-- Binding a reference fills in the catalog. -/
theorem bind_filled (catalog : Catalog) (ref : NamedRef) : catalog.Filled (catalog.bind ref).2 where
  same := by
    unfold bind
    split <;> rfl
  kept := by
    intro other validator found
    rw [lookup_bind]
    split
    · next same => rw [bind_fst_of_bound (same ▸ found)]
    · exact found
  fresh := by
    intro other validator unbound found
    rw [lookup_bind] at found
    split at found
    · next same =>
      subst same
      rw [← Option.some.inj found, bind_fst_of_unbound unbound]
    · cases unbound.symm.trans found

/-- What is supplied fills in the catalog. -/
theorem supply_filled {stop : Stop} (supplied : catalog.supply stop = some later) :
    catalog.Filled later := by
  cases stop with
  | exhausted => cases supplied
  | unbound ref =>
    obtain rfl := Option.some.inj supplied
    exact catalog.bind_filled ref
  | unbuilt cell =>
    obtain rfl := Option.some.inj supplied
    exact ⟨rfl, id, fun unbound found => by cases unbound.symm.trans found⟩

section

variable {α : Type} {attempt : Catalog → Except Stop α}

/-- Settling fills in the catalog, however many rounds it takes. -/
theorem settleWithin_filled (attempt : Catalog → Except Stop α) (rounds : Nat)
    (catalog : Catalog) : catalog.Filled (settleWithin attempt rounds catalog).2 := by
  induction rounds generalizing catalog with
  | zero => exact .refl catalog
  | succ rounds ih =>
    rw [settleWithin]
    split
    · exact .refl catalog
    · split
      · next supplied => exact (supply_filled supplied).trans (ih _)
      · exact .refl catalog

/-- What rounds end with is the result of the attempt in a catalog with further validators. -/
theorem settleWithin_some {rounds : Nat} {result : α}
    (settled : (settleWithin attempt rounds catalog).1 = some result) :
    ∃ later, catalog.Filled later ∧ attempt later = .ok result := by
  induction rounds generalizing catalog with
  | zero => cases settled
  | succ rounds ih =>
    rw [settleWithin] at settled
    split at settled
    · next found =>
      cases settled
      exact ⟨catalog, .refl catalog, found⟩
    · split at settled
      · next supplied =>
        obtain ⟨last, filled, ended⟩ := ih settled
        exact ⟨last, (supply_filled supplied).trans filled, ended⟩
      · cases settled

/-! ## There are rounds enough -/

/-- How many declared names are not bound. -/
def pending (catalog : Catalog) : Nat :=
  (catalog.names.filter (fun ref => (catalog.bound.lookup ref).isNone)).length

/-- Binding a declared name that was not bound leaves fewer. -/
theorem pending_bind {ref : NamedRef} (declared : ref ∈ catalog.names)
    (unbound : catalog.bound.lookup ref = none) :
    (catalog.bind ref).2.pending < catalog.pending := by
  have remaining : (catalog.bind ref).2.names.filter
      (fun other => ((catalog.bind ref).2.bound.lookup other).isNone) =
      (catalog.names.filter (fun other => (catalog.bound.lookup other).isNone)).filter
        (fun other => ((catalog.bind ref).2.bound.lookup other).isNone) := by
    rw [(catalog.bind_filled ref).names, List.filter_filter]
    refine List.filter_congr (fun other _ => ?_)
    rw [lookup_bind]
    split
    · rfl
    · rw [Bool.and_self]
  rw [pending, remaining, pending]
  refine List.length_filter_lt_length_iff_exists.mpr ⟨ref, ?_, ?_⟩
  · rw [List.mem_filter, unbound]
    exact ⟨declared, rfl⟩
  · rw [lookup_bind, if_pos rfl]
    exact Bool.false_ne_true

/-- Rounds for every name that is not bound, and one more, are enough for an attempt that
stops at nothing else. -/
theorem settleWithin_returns {names : NamedRef → Prop}
    (declared : ∀ ref, names ref → ref ∈ catalog.names)
    (ends : ∀ later, catalog.Filled later → EndsUnless
      (fun stop => ∃ ref, stop = .unbound ref ∧ names ref ∧ later.bound.lookup ref = none)
      (attempt later))
    {rounds : Nat} (enough : catalog.pending < rounds) :
    ∃ result, (settleWithin attempt rounds catalog).1 = some result := by
  induction rounds generalizing catalog with
  | zero => exact absurd enough (Nat.not_lt_zero _)
  | succ rounds ih =>
    have here := ends catalog (.refl catalog)
    rw [settleWithin]
    cases tried : attempt catalog with
    | ok result => exact ⟨result, rfl⟩
    | error stop =>
      rw [tried] at here
      obtain ⟨ref, rfl, needed, unbound⟩ := here
      have filled := catalog.bind_filled ref
      refine @ih (catalog.bind ref).2 ?_ (fun last further => ?_) ?_
      · intro other needed
        rw [filled.names]
        exact declared other needed
      · exact ends last (filled.trans further)
      · exact Nat.lt_of_lt_of_le (pending_bind (declared ref needed) unbound)
          (Nat.le_of_lt_succ enough)

/-- An attempt that stops at nothing but declared names settles. -/
theorem settle_returns {names : NamedRef → Prop}
    (declared : ∀ ref, names ref → ref ∈ catalog.names)
    (ends : ∀ later, catalog.Filled later → EndsUnless
      (fun stop => ∃ ref, stop = .unbound ref ∧ names ref ∧ later.bound.lookup ref = none)
      (attempt later)) : ∃ result, (catalog.settle attempt).1 = some result := by
  refine settleWithin_returns declared ends (Nat.lt_succ_of_le (Nat.le_add_right_of_le ?_))
  exact List.length_filter_le _ _

end

/-! ## Validators made in time -/

/-- The catalog has the definitions and the formats of the context. Of the names, those that
are bound stood for what they stand for now when their validators were made, and the unions
had the discriminators that they have now. -/
structure Serves (catalog : Catalog) (context : Context) (names : NamedRef → Prop) : Prop where
  meaning : catalog.meaning = context.definitions
  format : catalog.surroundings.format = context.format
  timely : ∀ {ref validator}, names ref → catalog.bound.lookup ref = some validator →
    ∃ earlier : Definitions, earlier ref = context.definitions ref ∧
      (context.definitions ref).Decided earlier context.definitions ∧
      validator = .ofName earlier ref

/-- The validator stands for the schema: it was made from it when its unions had the
discriminators that they have now, or the schema is a name that is bound to it. -/
inductive Holds (catalog : Catalog) (context : Context) : Schema → Validator → Prop
  | made {schema : Schema} (earlier : Definitions)
      (decided : schema.Decided earlier context.definitions) :
      Holds catalog context schema (schema.validator earlier)
  | kept {ref : NamedRef} {validator : Validator}
      (found : catalog.bound.lookup ref = some validator) :
      Holds catalog context (.named ref) validator

variable {context : Context} {names : NamedRef → Prop} {schema : Schema} {validator : Validator}

/-- Further validators are made in time. -/
theorem Serves.filled (serves : catalog.Serves context names) (filled : catalog.Filled later) :
    later.Serves context names where
  meaning := filled.meaning.trans serves.meaning
  format := filled.format.trans serves.format
  timely := by
    intro ref validator answered found
    cases before : catalog.bound.lookup ref with
    | none =>
      refine ⟨context.definitions, rfl, .refl _ _, ?_⟩
      rw [filled.fresh before found, serves.meaning]
    | some other =>
      cases (filled.kept before).symm.trans found
      exact serves.timely answered before

/-- What a catalog holds, it holds when it is filled in further. -/
theorem Holds.filled (holds : catalog.Holds context schema validator)
    (filled : catalog.Filled later) : later.Holds context schema validator := by
  cases holds with
  | made earlier decided => exact .made earlier decided
  | kept found => exact .kept (filled.kept found)

/-- What runs see of the catalog, as the context has it. -/
def Serves.supply (serves : catalog.Serves context names) : context.Supply where
  surroundings := catalog.surroundings
  moments _ := True
  names := names
  format := serves.format
  bound answered found := by
    obtain ⟨earlier, same, decided, made⟩ := serves.timely answered found
    exact ⟨earlier, trivial, same, decided, made⟩

/-- A run of a validator that stands for a schema is an attempt by the schema. -/
theorem Holds.run (holds : catalog.Holds context schema validator)
    (serves : catalog.Serves context names)
    (within : schema.Within context.definitions names) :
    ∃ earlier extra, serves.supply.Made earlier schema ∧ ∀ limit place value,
      Validator.run catalog.surroundings limit validator context.settings place value =
        serves.supply.attempt earlier (limit + extra) schema place value := by
  cases holds with
  | made earlier decided => exact ⟨earlier, 0, ⟨trivial, decided, within⟩, fun _ _ _ => rfl⟩
  | @kept ref validator found =>
    refine ⟨context.definitions, 1, ⟨trivial, .refl _ _, within⟩, fun limit place value => ?_⟩
    have bound : serves.supply.surroundings.bound ref = some validator := found
    simp only [Context.Supply.attempt, Schema.validator, Validator.run, bound]
    rfl

section

variable (serves : catalog.Serves context names)
  (holds : catalog.Holds context schema validator)
  (within : schema.Within context.definitions names)

include serves holds within

/-- What a validation answers is judged by validators made in time. -/
theorem validate_judged {limit : Nat} {place : Identity} {value : Value} {verdict : Verdict}
    (validated : (catalog.validate limit validator context.settings place value).1 =
      some verdict) : ∃ supply : context.Supply, supply.Judges schema value verdict := by
  obtain ⟨later, filled, ended⟩ := settleWithin_some validated
  obtain ⟨earlier, extra, made, same⟩ := (holds.filled filled).run (serves.filled filled) within
  rw [same] at ended
  exact ⟨_, earlier, made, _, place, ended⟩

/-- A validation returns where the schema settles. -/
theorem validate_returns (declared : ∀ ref, names ref → ref ∈ catalog.names) {arrays : Bool}
    {value : Value} (admitted : context.Admits arrays value)
    (settles : context.Settles arrays (value.nesting arrays) schema) :
    ∃ bound, ∀ limit, bound ≤ limit → ∀ place, ∃ verdict,
      (catalog.validate limit validator context.settings place value).1 = some verdict := by
  obtain ⟨bound, ends⟩ := settles.attempt
  refine ⟨bound, fun limit enough place => ?_⟩
  refine settle_returns declared (fun later filled => ?_)
  obtain ⟨earlier, extra, made, same⟩ := (holds.filled filled).run (serves.filled filled) within
  rw [same]
  exact ends _ (Nat.le_add_right_of_le enough) _ earlier made place value admitted (Nat.le_refl _)

end

end Catalog

end Conform
