import Conform.Proofs.Attempt.Termination
import Conform.Proofs.Catalog.Settling
import Conform.Proofs.Discriminator.Stability

/-!
# Histories of names

A program declares names, gives them definitions, asks for their validators and validates,
in any order. The validator of a name is made when it is first asked for or needed, from
what the name stands for at that moment, and the catalog keeps it. Other validators are made
from schemas, and look their names up when they run.

Names that were defined in time bind: a validation answers as it would if all had been
declared and defined first. A name was in time when it stood for what it stands for now by
the moment its validator was made, and the unions of its definition had the discriminators
that they have now. A name that is asked for before it is defined is kept as a name without
a definition, and lets every value through from then on.
-/

namespace Conform

/-- What a program does with names and their validators. -/
inductive Operation where
  /-- Declares a name. -/
  | declare (name : String)
  /-- Gives a name its definition, unless it has one. -/
  | define (ref : NamedRef) (schema : Schema)
  /-- Asks for the validator of a name. -/
  | ask (ref : NamedRef)
  /-- Validates a value. -/
  | validate (limit : Nat) (validator : Validator) (options : Options) (place : Identity)
      (value : Value)
  /-- Asks whether a value belongs to a name. -/
  | identify (limit : Nat) (ref : NamedRef) (place : Identity) (value : Value)

/-- Whether the operation declares or defines a name. -/
def Operation.supplies : Operation → Bool
  | .declare _ => true
  | .define _ _ => true
  | _ => false

namespace Catalog

/-- The catalog after an operation. -/
def perform (catalog : Catalog) : Operation → Catalog
  | .declare name => (catalog.declare name).2
  | .define ref schema =>
    match catalog.define ref schema with
    | .ok catalog => catalog
    | .error _ => catalog
  | .ask ref => (catalog.bind ref).2
  | .validate limit validator options place value =>
    (catalog.validate limit validator options place value).2
  | .identify limit ref place value => (catalog.isA limit ref place value).2

/-- With some limit, a validation of the value answers the verdict. -/
def Answers (catalog : Catalog) (validator : Validator) (options : Options) (value : Value)
    (verdict : Verdict) : Prop :=
  ∃ limit place, (catalog.validate limit validator options place value).1 = some verdict

/-- From some limit on, every validation of the value answers. -/
def Returns (catalog : Catalog) (validator : Validator) (options : Options) (value : Value) :
    Prop :=
  ∃ bound, ∀ limit, bound ≤ limit → ∀ place, ∃ verdict,
    (catalog.validate limit validator options place value).1 = some verdict

/-- The catalog with its names and definitions, before any validator is made. -/
def unused (catalog : Catalog) : Catalog :=
  { catalog with bound := [], built := [] }

variable {catalog later : Catalog}

/-- Names that are filled in use up no keys. -/
theorem Filled.unused_eq (filled : catalog.Filled later) : later.unused = catalog.unused := by
  rw [filled.same]
  rfl

/-- What neither declares nor defines leaves no more behind than validators and parts. -/
theorem perform_filled {operation : Operation} (uses : operation.supplies = false) :
    catalog.Filled (catalog.perform operation) := by
  cases operation with
  | declare name => cases uses
  | define ref schema => cases uses
  | ask ref => exact catalog.bind_filled ref
  | validate limit validator options place value => exact settleWithin_filled _ _ _
  | identify limit ref place value => exact settleWithin_filled _ _ _

/-- What declares or defines makes no validator, and does the same where none is made. -/
theorem perform_supplies {operation : Operation} (supplies : operation.supplies = true) :
    (catalog.perform operation).bound = catalog.bound ∧
      catalog.unused.perform operation = (catalog.perform operation).unused := by
  cases operation with
  | declare name => exact ⟨rfl, rfl⟩
  | define ref schema =>
    have same : catalog.unused.definitions = catalog.definitions := rfl
    simp only [perform, define, same]
    cases catalog.definitions.lookup ref <;> exact ⟨rfl, rfl⟩
  | ask ref => cases supplies
  | validate limit validator options place value => cases supplies
  | identify limit ref place value => cases supplies

/-- A validator that is kept after an operation was kept before it, or is made from what the
name stands for. -/
theorem perform_bound {operation : Operation} {ref : NamedRef} {validator : Validator}
    (found : (catalog.perform operation).bound.lookup ref = some validator) :
    catalog.bound.lookup ref = some validator ∨
      catalog.bound.lookup ref = none ∧ validator = .ofName catalog.meaning ref := by
  cases supplies : operation.supplies with
  | true =>
    rw [(perform_supplies supplies).1] at found
    exact .inl found
  | false =>
    have filled : catalog.Filled (catalog.perform operation) := perform_filled supplies
    cases before : catalog.bound.lookup ref with
    | none => exact .inr ⟨rfl, filled.fresh before found⟩
    | some other => exact .inl ((filled.kept before).symm.trans found)

/-- A definition that is given stays. -/
theorem perform_definitions {operation : Operation} {ref : NamedRef} {schema : Schema}
    (given : catalog.definitions.lookup ref = some schema) :
    (catalog.perform operation).definitions.lookup ref = some schema := by
  cases supplies : operation.supplies with
  | false =>
    rw [(perform_filled supplies).same]
    exact given
  | true =>
    cases operation with
    | declare name => exact given
    | define other definition =>
      rw [perform, define]
      cases earlier : catalog.definitions.lookup other with
      | some _ => exact given
      | none =>
        have apart : ref ≠ other := by
          rintro rfl
          cases earlier.symm.trans given
        simp only [List.lookup_cons, beq_false_of_ne apart]
        exact given
    | _ => cases supplies

/-- A definition that is given stays, whatever is done next. -/
theorem foldl_definitions {ref : NamedRef} {schema : Schema} (operations : List Operation)
    (given : catalog.definitions.lookup ref = some schema) :
    (operations.foldl perform catalog).definitions.lookup ref = some schema := by
  induction operations generalizing catalog with
  | nil => exact given
  | cons operation rest ih => exact ih (perform_definitions given)

/-- Operations that declare and define leave the same names and definitions without the
others. -/
theorem foldl_unused (operations : List Operation) (catalog : Catalog) :
    (operations.filter Operation.supplies).foldl perform catalog.unused =
      (operations.foldl perform catalog).unused := by
  induction operations generalizing catalog with
  | nil => rfl
  | cons operation rest ih =>
    rw [List.foldl_cons, List.filter_cons]
    cases supplies : operation.supplies with
    | true =>
      rw [if_pos rfl, List.foldl_cons, (perform_supplies supplies).2]
      exact ih _
    | false =>
      rw [if_neg Bool.false_ne_true, ← (perform_filled supplies).unused_eq]
      exact ih _

end Catalog

/-- What a program did with names, in order. -/
abbrev History :=
  List Operation

namespace History

/-- The catalog that a history leaves. -/
def catalog (history : History) : Catalog :=
  history.foldl Catalog.perform .initial

/-- The catalog after the first operations of a history. -/
def after (history : History) (count : Nat) : Catalog :=
  catalog (history.take count)

/-- The declarations and definitions of a history, without what else it does. -/
def supplied (history : History) : History :=
  history.filter Operation.supplies

/-- What validations at the end of a history depend on. -/
def context (history : History) (settings : Options) : Context :=
  ⟨history.catalog.meaning, history.catalog.surroundings.format, settings⟩

/-- Whenever the validator of one of the names was made, the name stood for what it stands
for at the end, and the unions behind it had the discriminators that they have at the end. -/
def Timely (history : History) (names : NamedRef → Prop) : Prop :=
  ∀ count < history.length, ∀ ref, names ref →
    (history.after count).bound.lookup ref = none →
    (history.after (count + 1)).bound.lookup ref ≠ none →
    (history.after count).meaning ref = history.catalog.meaning ref ∧
      (history.catalog.meaning ref).Decided (history.after count).meaning history.catalog.meaning

/-- The validators that a program may hold for a schema: one made from the schema earlier,
when its unions had the discriminators that they have at the end, and the one that is kept
for the name that the schema is. -/
inductive Held (history : History) : Schema → Validator → Prop
  | compiled {schema : Schema} (count : Nat)
      (decided : schema.Decided (history.after count).meaning history.catalog.meaning) :
      Held history schema (schema.validator (history.after count).meaning)
  | kept {ref : NamedRef} {validator : Validator}
      (found : history.catalog.bound.lookup ref = some validator) :
      Held history (.named ref) validator

variable {history : History}

/-- After all of a history the catalog is the one it leads to. -/
theorem after_length (history : History) : history.after history.length = history.catalog := by
  rw [after, List.take_length]

/-- One more operation is performed on the catalog before it. -/
theorem after_succ {count : Nat} (there : count < history.length) :
    history.after (count + 1) = (history.after count).perform history[count] := by
  rw [after, catalog, List.take_add_one, List.getElem?_eq_getElem there, List.foldl_append]
  rfl

/-- A validator that is kept was made at some moment from what the name stood for. -/
theorem exists_moment {count : Nat} (there : count ≤ history.length) {ref : NamedRef}
    {validator : Validator} (found : (history.after count).bound.lookup ref = some validator) :
    ∃ earlier < count, (history.after earlier).bound.lookup ref = none ∧
      (history.after (earlier + 1)).bound.lookup ref ≠ none ∧
      validator = .ofName (history.after earlier).meaning ref := by
  induction count with
  | zero => cases found
  | succ count ih =>
    have made := found
    rw [after_succ there] at made
    rcases Catalog.perform_bound made with kept | ⟨unbound, rfl⟩
    · obtain ⟨earlier, less, moment⟩ := ih (Nat.le_of_succ_le there) kept
      exact ⟨earlier, Nat.lt_succ_of_lt less, moment⟩
    · refine ⟨count, Nat.lt_succ_self count, unbound, ?_, rfl⟩
      rw [found]
      exact Option.some_ne_none _

/-- A name that was defined stood for what it stands for at the end. -/
theorem meaning_eq_of_defined {count : Nat} {ref : NamedRef}
    (defined : (history.after count).definitions.lookup ref ≠ none) :
    (history.after count).meaning ref = history.catalog.meaning ref := by
  obtain ⟨schema, given⟩ := Option.ne_none_iff_exists'.mp defined
  have kept : history.catalog.definitions.lookup ref = some schema := by
    have last := Catalog.foldl_definitions (history.drop count) given
    rwa [after, catalog, ← List.foldl_append, List.take_append_drop] at last
  rw [Catalog.meaning, Catalog.meaning, given, kept]

/-- A schema whose names were all defined has the discriminators at the end that it had. -/
theorem decided_of_defined {count : Nat} {schema : Schema}
    (defined : schema.Within history.catalog.meaning
      (fun ref => (history.after count).definitions.lookup ref ≠ none)) :
    schema.Decided (history.after count).meaning history.catalog.meaning := by
  refine Schema.Stable.decided (Schema.Throughout.imp defined ?_)
  exact fun node defined ref named => meaning_eq_of_defined (defined ref named)

/-- Names are in time when they are first asked for after all the names behind them are
defined. -/
theorem timely_of_defined {names : NamedRef → Prop}
    (defined : ∀ count < history.length, ∀ ref, names ref →
      (history.after count).bound.lookup ref = none →
      (history.after (count + 1)).bound.lookup ref ≠ none →
      (Schema.named ref).Within history.catalog.meaning
        (fun ref => (history.after count).definitions.lookup ref ≠ none)) :
    history.Timely names := by
  intro count there ref answered unbound bound
  have within := defined count there ref answered unbound bound
  exact ⟨meaning_eq_of_defined (within.here ref rfl),
    decided_of_defined (within.facet Schema.definition_mem_facets)⟩

/-- At the end of a history that was in time, the catalog serves. -/
theorem Timely.serves {names : NamedRef → Prop} (timely : history.Timely names)
    (settings : Options) : history.catalog.Serves (history.context settings) names where
  meaning := rfl
  format := rfl
  timely := by
    intro ref validator answered found
    rw [← after_length] at found
    obtain ⟨count, there, unbound, bound, rfl⟩ := exists_moment (Nat.le_refl _) found
    obtain ⟨same, decided⟩ := timely count there ref answered unbound bound
    exact ⟨_, same, decided, rfl⟩

/-- What a history holds of a schema, its catalog holds. -/
theorem Held.holds {schema : Schema} {validator : Validator}
    (held : history.Held schema validator) (settings : Options) :
    history.catalog.Holds (history.context settings) schema validator := by
  cases held with
  | compiled count decided => exact .made _ decided
  | kept found => exact .kept found

/-- Declarations and definitions alone leave the same catalog, before any validator is made. -/
theorem catalog_supplied (history : History) : history.supplied.catalog = history.catalog.unused :=
  Catalog.foldl_unused history .initial

/-- Where nothing but declarations and definitions went before, the catalog serves. -/
theorem supplied_serves (history : History) (settings : Options) (names : NamedRef → Prop) :
    history.supplied.catalog.Serves (history.context settings) names := by
  rw [catalog_supplied]
  exact ⟨rfl, rfl, fun _ found => nomatch found⟩

/-- When its names were in time, a validation answers as it would if all names had been
declared and defined before any validator was asked for or run: it accepts the same values,
with identical answers. It returns, as that one does, where the schema is grounded. -/
theorem answers_as_supplied {settings : Options} {schema : Schema} {validator : Validator}
    (held : history.Held schema validator)
    (timely : history.Timely
      (fun ref => schema.Reaches history.catalog.meaning (.named ref)))
    (sound : (history.context settings).Sound schema) (value : Value) :
    (∀ verdict verdict', history.catalog.Answers validator settings value verdict →
        history.supplied.catalog.Answers (schema.validator history.supplied.catalog.meaning)
          settings value verdict' →
        verdict.Agree verdict') ∧
      ((∀ ref, schema.Reaches history.catalog.meaning (.named ref) →
          ref ∈ history.catalog.names) →
        schema.Grounded history.catalog.meaning →
        (settings.allowConvertForArrayType = true →
          schema.Anchored history.catalog.meaning ∨
            value.Throughout (fun part => part.isLone = false)) →
        history.catalog.Returns validator settings value ∧
          history.supplied.catalog.Returns
            (schema.validator history.supplied.catalog.meaning) settings value) := by
  have within : schema.Within (history.context settings).definitions
      (fun ref => schema.Reaches history.catalog.meaning (.named ref)) := by
    rintro node reached ref rfl
    exact reached
  have serves := timely.serves settings
  have holds := held.holds settings
  have serves' := history.supplied_serves settings
    (fun ref => schema.Reaches history.catalog.meaning (.named ref))
  have holds' : history.supplied.catalog.Holds (history.context settings) schema
      (schema.validator history.supplied.catalog.meaning) :=
    .made _ (serves'.meaning ▸ .refl _ _)
  constructor
  · rintro verdict verdict' ⟨limit, place, answered⟩ ⟨limit', place', answered'⟩
    obtain ⟨supply, judged⟩ := Catalog.validate_judged serves holds within answered
    obtain ⟨supply', judged'⟩ := Catalog.validate_judged serves' holds' within answered'
    exact Context.Supply.judges_agree sound (Value.Like.refl (fun _ => trivial) value)
      judged judged'
  · intro declared grounded spared
    obtain ⟨arrays, admitted, settles⟩ := Context.exists_settles sound grounded spared
    refine ⟨Catalog.validate_returns serves holds within declared admitted settles,
      Catalog.validate_returns serves' holds' within ?_ admitted settles⟩
    rw [catalog_supplied]
    exact declared

end History

namespace Shapes

/-- Circles are asked for before groups are defined, and a value is validated at the end. -/
def drafted : History :=
  [.declare "Shape", .declare "Circle", .declare "Group",
    .define ⟨0, "Shape"⟩ (.union 10 variants), .define ⟨1, "Circle"⟩ circle,
    .ask ⟨1, "Circle"⟩, .define ⟨2, "Group"⟩ group,
    .validate 9 (.reference ⟨0, "Shape"⟩) .strict (.run 4) stray]

/-- What holds of the nodes of shapes holds throughout them, by the definitions given. -/
theorem drafted_throughout {holds : Schema → Prop} (all : ∀ node ∈ nodes, holds node)
    {schema : Schema} (member : schema ∈ nodes) :
    schema.Throughout drafted.catalog.meaning holds :=
  Schema.throughout_of_closed nodes (by decide +kernel) all member

/-- Arrays of shapes bind to what was defined after they were compiled. -/
theorem drafted_answers_as_supplied :
    let shapes : Schema := .array 16 shape none none
    let validator : Validator := shapes.validator (drafted.after 4).meaning
    let value : Value := .array (.run 3) [.object (.run 2) [("kind", .string "circle"),
      ("radius", .number radius)] []] []
    drafted.catalog.Returns validator .strict value ∧
      ∀ verdict verdict', drafted.catalog.Answers validator .strict value verdict →
        drafted.supplied.catalog.Answers
          (shapes.validator drafted.supplied.catalog.meaning) .strict value verdict' →
        verdict.Agree verdict' := by
  intro shapes validator value
  have inside : shapes ∈ nodes := by decide +kernel
  have held : drafted.Held shapes validator := by
    refine .compiled 4 (Schema.throughout_of_closed [shapes, shape, .unknown]
      (by decide +kernel) ?_ (.head _))
    simp [shapes, shape]
  have named : ∀ ref, Schema.named ref ∈ nodes → ref ∈ drafted.catalog.names := by
    have names : drafted.catalog.names = [⟨0, "Shape"⟩, ⟨1, "Circle"⟩, ⟨2, "Group"⟩] := rfl
    simp [names, nodes, shape, circle, group]
  have declared : ∀ ref, shapes.Reaches drafted.catalog.meaning (.named ref) →
      ref ∈ drafted.catalog.names := by
    intro ref reached
    exact named ref (drafted_throughout (fun node => id) inside _ reached)
  have moments : ∀ count < 8, ∀ ref ∈ drafted.catalog.names,
      (drafted.after count).bound.lookup ref = none →
      (drafted.after (count + 1)).bound.lookup ref ≠ none →
      count = 5 ∧ ref = ⟨1, "Circle"⟩ ∨ count = 7 := by
    decide +kernel
  have timely : drafted.Timely
      (fun ref => shapes.Reaches drafted.catalog.meaning (.named ref)) := by
    refine History.timely_of_defined (fun count there ref reached unbound bound => ?_)
    rcases moments count there ref (declared ref reached) unbound bound with ⟨rfl, rfl⟩ | rfl
    · refine Schema.throughout_of_closed [.named ⟨1, "Circle"⟩, circle,
        .string 12 { allowed := [.string "circle"] }, .number 13 {}] (by decide +kernel) ?_
        (.head _)
      have defined : (drafted.after 5).definitions.lookup ⟨1, "Circle"⟩ ≠ none := by
        decide +kernel
      simpa [circle] using defined
    · have defined : ∀ ref ∈ drafted.catalog.names,
          (drafted.after 7).definitions.lookup ref ≠ none := by decide +kernel
      refine Schema.Throughout.reached (drafted_throughout ?_ inside) reached
      rintro node member ref rfl
      exact defined ref (named ref member)
  have sound : (drafted.context .strict).Sound shapes := by
    refine drafted_throughout ?_ inside
    simp [nodes, Schema.wellFormed_iff, Schema.DistinctNames, Schema.KnownFormats,
      shape, circle, group, Property.names]
  have grounded : shapes.Grounded drafted.catalog.meaning :=
    Schema.grounded_of_rank rank (drafted_throughout (by decide +kernel) inside)
  obtain ⟨agree, returns⟩ := History.answers_as_supplied held timely sound value
  have kept : Options.strict.allowConvertForArrayType = false := rfl
  exact ⟨(returns declared grounded (fun taken => absurd taken (by simp [kept]))).1, agree⟩

end Shapes

/-! ## Validators that are made too early -/

namespace Hasty

/-- The name. -/
def label : NamedRef :=
  ⟨0, "Label"⟩

/-- The validator of the name is asked for before the name is defined. -/
def asked : History :=
  [.declare "Label", .ask label, .define label (.string 1 {})]

/-- A circle, a group, or anything else. -/
def anything : Schema :=
  .union 20 [.named ⟨0, "Circle"⟩, .named ⟨1, "Group"⟩, .unknown]

/-- The validator of anything is made before circles and groups are defined. -/
def compiled : History :=
  [.declare "Circle", .declare "Group", .define ⟨0, "Circle"⟩ Shapes.circle,
    .define ⟨1, "Group"⟩ Shapes.group]

/-- A circle. -/
def round : Value :=
  .object (.run 0) [("kind", .string "circle"), ("radius", .number Shapes.radius)] []

/-- A name that was asked for before it was defined accepts what its definition rejects. A
union that was compiled before its variants were defined rejects what its discriminator
accepts, as it tries all its options. -/
theorem hasty_answers_differ :
    (asked.catalog.meaning label = .string 1 {} ∧
      ∃ validator violations, asked.Held (.named label) validator ∧
        asked.catalog.Answers validator .strict (.number Shapes.radius)
          (.accepted (.number Shapes.radius)) ∧
        asked.supplied.catalog.Answers
          (Schema.validator asked.supplied.catalog.meaning (.named label)) .strict
          (.number Shapes.radius) (.rejected violations)) ∧
      ∃ violations answer,
        compiled.catalog.Answers (anything.validator (compiled.after 2).meaning) .strict round
          (.rejected violations) ∧
        compiled.supplied.catalog.Answers
          (anything.validator compiled.supplied.catalog.meaning) .strict round
          (.accepted answer) := by
  constructor
  · exact ⟨rfl, _, _, .kept rfl, ⟨3, .run 0, rfl⟩, ⟨5, .run 0, rfl⟩⟩
  · exact ⟨_, _, ⟨9, .run 0, rfl⟩, ⟨9, .run 0, rfl⟩⟩

end Hasty

end Conform
