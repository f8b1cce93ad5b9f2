import Conform.Proofs.Wire.Fixed

/-!
# Judging again

A schema that has answered a value without tags judges its own answer. Whatever took part the first
time finds what its own answer became, and fixes that. So the second answer is equal to the first,
unless a union finds several options that match now.
-/

namespace Conform

namespace Context

variable {context : Context} {value answer : Value} {schema : Schema}

/-- With enough fuel a schema returns on its own answer to a value that arrived by wire names, and
accepts it with equal data, when the object types that judged one object in turn are apart, leave
no forbidden key in it, and unions can select again. If it does not, a union that took part finds
that several options match what became of its part. -/
theorem decoded_revalidates (network : context.settings = .fromNetwork)
    (sound : context.Sound schema) (grounded : schema.Grounded context.definitions)
    (bare : value.Throughout Value.Bare) (judged : context.Judges schema value (.accepted answer))
    (apart : answer.Throughout context.TypesApart)
    (lacking : answer.Throughout context.LacksForbiddenKeys)
    (selectsAgain : ∀ node choices stage result final,
      context.Traced schema value answer (.union node choices) stage result final →
      context.SelectsAgain choices stage final) :
    ∃ bound, ∀ fuel, bound ≤ fuel → ∀ place, ∃ verdict,
      context.attempt fuel schema place answer = .ok verdict ∧
        ((∃ answer', verdict = .accepted answer' ∧ answer'.eq answer = true) ∨
          context.SomeUnionAmbiguous schema value answer) := by
  have lone := (Options.wired_of_network network).lone
  have converted : value.Throughout context.Converted :=
    fun part reached => converted_of_bare (bare part reached)
  obtain ⟨bound, ends⟩ := settles lone sound grounded answer.depth
  refine ⟨bound, fun fuel enough place => ?_⟩
  obtain ⟨verdict, ended⟩ := ends fuel enough place answer (Nat.le_refl _)
  refine ⟨verdict, ended, or_iff_not_imp_right.mpr fun clear => ?_⟩
  obtain ⟨answer', rfl, same⟩ := Traced.whole.fixes network sound judged converted apart grounded
    bare lacking selectsAgain clear verdict ⟨fuel, place, ended⟩
  exact ⟨answer', rfl, same.eq⟩

end Context

namespace Shapes

/-- A group of one circle, as it arrives. Both have a field of the name that their kind is under in
the end. -/
def arrived : Value :=
  .object (.run 0) [("members", .array (.run 1) [
    .object (.run 2) [("r", .number radius), ("type", .string "circle"), ("kind", .null)] []] []),
    ("type", .string "group"), ("kind", .null), ("note", .null)] []

/-- The group, as it is received. -/
def received : Value :=
  .object (.run 3) [("kind", .string "group"),
    ("members", .array (((Identity.run 3).part 0).part 1) [
      .object ((((Identity.run 3).part 0).part 1).part 0)
        [("kind", .string "circle"), ("radius", .number radius)] [.named ⟨1, "Circle"⟩, shape]]
      [.array 16 shape none none]),
    ("note", .null)] [.named ⟨2, "Group"⟩]

/-- The group is received, and received again as it is. -/
theorem arrived_revalidates :
    let context : Context := ⟨definitions, fun _ => none, .fromNetwork⟩
    context.Judges (.union 10 variants) arrived (.accepted received) ∧
      ∃ bound, ∀ fuel, bound ≤ fuel → ∀ place, ∃ answer',
        context.attempt fuel (.union 10 variants) place received = .ok (.accepted answer') ∧
          answer'.eq received = true := by
  intro context
  have inside : .union 10 variants ∈ nodes := .tail _ (.head _)
  have sound : context.Sound (.union 10 variants) := sound _ _ inside
  have bare : arrived.Throughout Value.Bare := by
    simp [arrived, Value.bare_iff, Value.Keyed, Fields.Distinct, Fields.keys, Value.tags,
      Value.tags?]
  have accepted : context.Judges (.union 10 variants) arrived (.accepted received) :=
    ⟨20, .run 3, by with_unfolding_all rfl⟩
  -- each object has been judged by one variant
  have apart : received.Throughout context.TypesApart := by
    simp [received, Context.TypesApart, Value.tags, Value.tags?, Context.shape, shape, context,
      definitions, Schema.isContainer]
  have lacking : received.Throughout context.LacksForbiddenKeys := by
    simp [received, Context.LacksForbiddenKeys, Value.fields?, Fields.keys, Validator.forbiddenKeys]
  have decisive : (Schema.union 10 variants).Throughout definitions
      (Schema.Decisive definitions) := by
    refine throughout ?_ inside
    simp [nodes, Schema.Decisive, find?_variants, shape, circle, group]
  have named : (Schema.union 10 variants).Throughout definitions
      (fun node => ∀ number choices, node = .union number choices →
        ∀ choice ∈ choices, ∃ ref, choice = .named ref) := by
    refine throughout ?_ inside
    simp [nodes, shape, circle, group, variants]
  have selectsAgain : ∀ node choices stage result final,
      context.Traced (.union 10 variants) arrived received (.union node choices) stage result
        final → context.SelectsAgain choices stage final :=
    fun node choices stage result final traced => traced.selectsAgain rfl sound accepted
      (fun part reached => Context.converted_of_bare (bare part reached)) apart
      (fun choice member => .inr (named _ traced.reaches _ _ rfl choice member))
      (decisive _ traced.reaches)
  obtain ⟨bound, again⟩ := Context.decoded_revalidates rfl sound (grounded inside) bare accepted
    apart lacking selectsAgain
  refine ⟨accepted, bound, fun fuel enough place => ?_⟩
  obtain ⟨verdict, ended, equal⟩ := again fuel enough place
  obtain ⟨answer', rfl, same⟩ :=
    equal.resolve_right (Context.not_someUnionAmbiguous_of_decisive sound decisive)
  exact ⟨answer', ended, same⟩

end Shapes

/-! ## Bodies

Envelopes are of two kinds, one with a body. A discriminator tells them apart, and yet the body
may be refused or judged otherwise the next time. -/

namespace Envelopes

/-- The kinds of envelopes. -/
def kinds (body : Schema) : List Schema :=
  [.object 20 [⟨"kind", true, none, .string 21 { allowed := [.string "a"] }⟩,
      ⟨"body", true, none, body⟩] .keep,
    .object 22 [⟨"kind", true, none, .string 23 { allowed := [.string "b"] }⟩] .keep]

/-- An envelope that holds a body. -/
def holding (body : Schema) : Schema :=
  .union 24 (kinds body)

/-- An envelope of the first kind. -/
def envelope (body : Value) : Value :=
  .object (.run 0) [("kind", .string "a"), ("body", body)] []

/-- Accepts `b` once it has a tag, and renames `dd`. -/
def after : Schema :=
  .object 25 [⟨"a", true, none, .object 6 [] .keep⟩, ⟨"b", true, none, Twins.either⟩,
    ⟨"c", true, none, .unknown⟩, ⟨"d", true, some "dd", .unknown⟩] .keep

/-- Judged in the first way, a record is judged in the second way the next time. -/
def changing : Schema :=
  .union 26 [Twins.before, after]

/-- A record by wire names. -/
def record : Value :=
  .object (.run 1) [("a", Twins.blank), ("b", Twins.blank), ("c", Twins.blank), ("dd", .null)] []

/-- Numbers only, or anything. -/
def loose : Schema :=
  .union 27 [.object 28 [] (.each (.number 29 {})), .object 30 [] .keep]

/-- A number read under `b` takes the place of what was under `a`. -/
def covering : Schema :=
  .intersection 31 [loose, .object 32 [⟨"a", true, some "b", .number 33 {}⟩] .keep]

/-- A text under `a`. -/
def covered : Value :=
  .object (.run 1) [("b", .number Shapes.radius), ("a", .string "x")] []

/-- A property under a forbidden name. -/
def forbidding : Schema :=
  .object 34 [⟨"__proto__", true, some "proto", .unknown⟩] .keep

/-- The property by its wire name. -/
def permitted : Value :=
  .object (.run 1) [("proto", .null)] []

/-- A text under `a` that the next component reads under `w`. -/
def renamed : Schema :=
  .intersection 35 [.object 36 [⟨"a", true, none, .string 21 { allowed := [.string "a"] }⟩] .keep,
    .object 37 [⟨"a", true, some "w", .unknown⟩] .keep]

/-- A field under `w` that the next component moves. -/
def moved : Schema :=
  .intersection 38 [.object 39 [⟨"w", true, none, .unknown⟩] .keep,
    .object 40 [⟨"b", true, some "w", .unknown⟩] .keep]

/-- A field that is moved to `w`, and from there by the next component. -/
def chained : Schema :=
  .intersection 41 [.object 42 [⟨"w", true, some "x", .unknown⟩] .keep,
    .object 43 [⟨"a", true, some "w", .unknown⟩] .keep]

/-- A kind that is read after a union has looked for it. -/
def redecided : Schema :=
  .intersection 44 [.union 45 [.object 46 [⟨"kind", true, none,
      .string 21 { allowed := [.string "a"] }⟩, ⟨"m", true, none, .unknown⟩] .keep,
      .object 47 [⟨"kind", true, none, .string 23 { allowed := [.string "b"] }⟩] .keep,
      .object 30 [] .keep],
    .object 48 [⟨"kind", true, some "z", .unknown⟩] .keep]

/-- Texts under the keys that these read. -/
def lettered : Value :=
  .object (.run 1) [("a", .string "a"), ("w", .string "b"), ("x", .string "c"),
    ("z", .string "a")] []

/-- The bodies that are refused, each with a value that it accepts before. -/
def refusing : List (Schema × Value) :=
  [(Twins.thrice, Twins.blank), (covering, covered), (forbidding, permitted), (renamed, lettered),
    (moved, lettered), (chained, lettered), (redecided, lettered)]

/-- All bodies, each with a value. -/
def bodies : List (Schema × Value) :=
  (changing, record) :: refusing

/-- All nodes that an envelope with the body reaches. -/
def nodes (body : Schema) : List Schema :=
  holding body :: kinds body ++ [.string 21 { allowed := [.string "a"] },
    .string 23 { allowed := [.string "b"] }, changing, after, covering, loose,
    .object 28 [] (.each (.number 29 {})), .object 30 [] .keep, .number 29 {},
    .object 32 [⟨"a", true, some "b", .number 33 {}⟩] .keep, .number 33 {},
    forbidding, renamed, moved, chained, redecided] ++
    [renamed, moved, chained, redecided].flatMap (Schema.facets Twins.definitions) ++
    [redecided].flatMap (fun node =>
      (node.facets Twins.definitions).flatMap (Schema.facets Twins.definitions)) ++ Twins.nodes

/-- Envelopes that a discriminator tells apart are refused after they were accepted, or are
accepted again with other fields. -/
theorem dispatched_not_idempotent :
    let context : Context := ⟨Twins.definitions, fun _ => none, .fromNetwork⟩
    ∀ pair ∈ bodies,
      (∃ discriminator,
          Discriminator.find? Twins.definitions (kinds pair.1) = some discriminator) ∧
        context.Sound (holding pair.1) ∧ (holding pair.1).Grounded Twins.definitions ∧
        (envelope pair.2).Throughout Value.Bare ∧
        ¬ context.Idempotent (holding pair.1) (envelope pair.2) := by
  intro context pair member
  have everywhere : ∀ {holds : Schema → Prop}, (∀ node ∈ nodes pair.1, holds node) →
      (holding pair.1).Throughout Twins.definitions holds := by
    have closed : ∀ pair ∈ bodies, ∀ node ∈ nodes pair.1,
        ∀ part ∈ node.parts Twins.definitions, part ∈ nodes pair.1 := by decide +kernel
    exact fun {_} all => Schema.throughout_of_closed _ (closed pair member) all (.head _)
  have sound : context.Sound (holding pair.1) := by
    refine everywhere ?_
    simp [nodes, Twins.nodes, holding, kinds, changing, after, covering, loose, forbidding,
      renamed, moved, chained, redecided, Schema.facets, Schema.wellFormed_iff,
      Schema.DistinctNames, Schema.KnownFormats, Twins.changing,
      Twins.before, Twins.after, Twins.thrice, Twins.either, Twins.first, Twins.second,
      Property.names]
  have falls : ∀ pair ∈ bodies, ∀ node ∈ nodes pair.1,
      ∀ facet ∈ node.facets Twins.definitions, Twins.rank facet < Twins.rank node := by
    decide +kernel
  have bare : ∀ pair ∈ bodies, (envelope pair.2).Throughout Value.Bare := by
    simp [bodies, refusing, envelope, Twins.blank, record, covered, permitted, lettered,
      Value.bare_iff, Value.Keyed, Fields.Distinct, Fields.keys, Value.tags, Value.tags?]
  have decided : ∀ pair ∈ bodies,
      (Discriminator.find? Twins.definitions (kinds pair.1)).isSome = true := by decide +kernel
  refine ⟨Option.isSome_iff_exists.mp (decided pair member), sound,
    Schema.grounded_of_rank Twins.rank (everywhere (falls pair member)), bare pair member, ?_⟩
  rcases List.mem_cons.mp member with rfl | listed
  · obtain ⟨answer, answer', accepted, again, unequal⟩ : ∃ answer answer',
        context.attempt 20 (holding changing) (.run 3) (envelope record) =
            .ok (.accepted answer) ∧
          context.attempt 20 (holding changing) (.run 4) answer = .ok (.accepted answer') ∧
          answer'.eq answer = false :=
      ⟨_, _, by with_unfolding_all rfl, by with_unfolding_all rfl, by with_unfolding_all rfl⟩
    exact Context.not_idempotent_of_unequal sound ⟨_, _, accepted⟩ ⟨_, _, again⟩ unequal
  · obtain ⟨answer, violations, accepted, refused⟩ : ∃ answer violations,
        context.attempt 20 (holding pair.1) (.run 3) (envelope pair.2) = .ok (.accepted answer) ∧
          context.attempt 20 (holding pair.1) (.run 4) answer = .ok (.rejected violations) := by
      simp only [refusing, List.mem_cons, List.not_mem_nil, or_false] at listed
      rcases listed with rfl | rfl | rfl | rfl | rfl | rfl | rfl <;>
        exact ⟨_, _, by with_unfolding_all rfl, by with_unfolding_all rfl⟩
    exact Context.not_idempotent_of_refused sound ⟨_, _, accepted⟩ ⟨_, _, refused⟩

end Envelopes

end Conform
