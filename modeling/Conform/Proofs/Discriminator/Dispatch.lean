import Conform.Proofs.Attempt.Termination
import Conform.Proofs.Discriminator.Candidates
import Conform.Proofs.Discriminator.Table

/-!
# Dispatch refines trial

A union with a discriminator runs the one option that a field of the value selects. When
the discriminator leaves no option aside, this gives what trying every option gives: the
same answer, or a refusal in both cases. An option that accepts admits the literal found at
the key, so it is the option selected, and no other option accepts.

The trial runs more than the dispatch does and may go on for ever where the dispatch does
not: an option that the discriminator rules out may take a lone scalar for its only item, again
and again. Where no option can do so, the trial returns on every value.
-/

namespace Conform

namespace Context

/-- From some fuel on and at every place, a validator returns a verdict. -/
def Returns (context : Context) (validator : Validator) (value : Value) : Prop :=
  ∃ bound, ∀ fuel, bound ≤ fuel → ∀ place, ∃ verdict,
    Validator.run context.surroundings fuel validator context.settings place value = .ok verdict

/-- From some fuel on and at every place, a validator accepts with the answer, up to the
identities of its contents. -/
def Yields (context : Context) (validator : Validator) (value answer : Value) : Prop :=
  ∃ bound, ∀ fuel, bound ≤ fuel → ∀ place, ∃ result,
    Validator.run context.surroundings fuel validator context.settings place value =
      .ok (.accepted result) ∧ result.Identical answer

/-- The validators of the options of a union. -/
abbrev makers (context : Context) (variants : List Schema) : List Validator :=
  variants.map (Schema.validator context.definitions)

variable {context : Context} {variants : List Schema} {value : Value}

/-- A dispatch judges as the option that the field at the key selects. Where the field selects
none, the options left aside are tried, and the dispatch refuses if there are none. -/
theorem run_dispatch (inward : context.settings.convertFromNetwork = false)
    (discriminator : Discriminator) (variants : List Schema) (value : Value) :
    ∃ violations, ∀ fuel place, Validator.run context.surroundings (fuel + 1)
        (.dispatch discriminator variants (context.makers variants)) context.settings place value =
      match discriminator.chosen? variants (value.field discriminator.key) with
      | some choice => context.attempt fuel choice place value
      | none =>
        if discriminator.rest.isEmpty then .ok (.rejected violations)
        else Validator.run context.surroundings fuel
          (.oneOf (context.makers (discriminator.aside variants))) context.settings place
          value := by
  simp only [Validator.run, makers, ← Discriminator.aside_map]
  cases value with
  | object content fields tags =>
    have field : (Fields.get? discriminator.key fields).getD .undefined =
        (Value.object content fields tags).field discriminator.key := rfl
    simp only [Validator.checkDispatch, Validator.dispatchKey_of_inward inward, field,
      Validator.selected?_eq_chosen?, Discriminator.chosen?_map]
    cases discriminator.chosen? variants
        ((Value.object content fields tags).field discriminator.key) with
    | none => exact ⟨_, fun _ _ => rfl⟩
    | some choice => exact ⟨[], fun _ _ => rfl⟩
  | _ => exact ⟨_, fun _ _ => rfl⟩

/-- What an option accepts holds, at the key, a value that stands for a literal of the option,
unless the option is left aside. -/
theorem owned_of_accepted {discriminator : Discriminator}
    (inward : context.settings.convertFromNetwork = false)
    (decided : Discriminator.find? context.definitions variants = some discriminator)
    (keyed : value.Keyed) {index : Nat} {variant : Schema} (sound : context.Sound variant)
    (listed : variants[index]? = some variant) (tagged : variant ∉ discriminator.aside variants)
    {answer : Value} (judged : context.Judges variant value (.accepted answer)) :
    ∃ literal, (value.field discriminator.key).StandsFor context.settings literal ∧
      discriminator.variantOf? literal = some index := by
  obtain ⟨candidate, member, key, owned⟩ := Discriminator.find?_spec decided listed tagged
  obtain ⟨literal, stands, inside⟩ := candidate_sound inward sound member keyed judged
  exact ⟨literal, key ▸ stands, owned literal inside⟩

/-- The validator of a schema yields what the schema once answered. -/
theorem yields_of_judged {schema : Schema} {answer : Value} (sound : context.Sound schema)
    (judged : context.Judges schema value (.accepted answer)) :
    context.Yields (schema.validator context.definitions) value answer := by
  obtain ⟨bound, attempts⟩ := attempts_of_judged sound judged
  refine ⟨bound, fun fuel enough place => ?_⟩
  obtain ⟨verdict, ended, alike⟩ := attempts fuel enough place
  cases alike with
  | accepted same => exact ⟨_, ended, same.symm (fun _ _ => id)⟩

/-- A trial returns when each of its options is judged. -/
theorem trial_returns (sound : ∀ variant ∈ variants, context.Sound variant)
    (judged : ∀ variant ∈ variants, ∃ verdict, context.Judges variant value verdict) :
    context.Returns (.oneOf (context.makers variants)) value := by
  have each : ∀ option ∈ variants, ∃ bound, ∀ fuel, bound ≤ fuel → ∀ place,
      Ends (context.attempt fuel option place value) := by
    intro option member
    obtain ⟨_, judged⟩ := judged option member
    obtain ⟨bound, attempts⟩ := attempts_of_judged (sound option member) judged
    exact ⟨bound, fun fuel enough place => (attempts fuel enough place).imp fun _ => And.left⟩
  obtain ⟨bound, attempts⟩ := exists_common_bound variants each
  refine ⟨bound + 1, fun fuel enough place => ?_⟩
  obtain ⟨less, rfl, within⟩ := exists_eq_add_of_add_le enough
  refine Validator.checkOneOf_ends (fun position option member => ?_) value
  obtain ⟨schema, listed, rfl⟩ := List.mem_map.mp member
  exact attempts less within schema listed (place.part position)

section

variable {discriminator : Discriminator} (verbatim : context.settings.Verbatim)
  (inward : context.settings.convertFromNetwork = false)
  (sound : ∀ variant ∈ variants, context.Sound variant)
  (decided : Discriminator.find? context.definitions variants = some discriminator)
  (complete : discriminator.rest = []) (keyed : value.Keyed)

include verbatim inward sound decided complete keyed

/-- An option that accepts is the one that the field at the key selects. -/
theorem selected_of_accepted {index : Nat} {variant : Schema} {answer : Value}
    (listed : variants[index]? = some variant)
    (judged : context.Judges variant value (.accepted answer)) :
    (value.field discriminator.key).literal?.bind discriminator.variantOf? = some index := by
  have tagged : variant ∉ discriminator.aside variants := by simp [Discriminator.aside, complete]
  obtain ⟨literal, stands, owned⟩ := owned_of_accepted inward decided keyed
    (sound variant (List.mem_of_getElem? listed)) listed tagged judged
  rw [stands.verbatim verbatim]
  exact owned

section

variable {fuel : Nat} {verdicts : List Verdict} (judged : List.Forall₂ (fun variant result =>
  ∃ origin, context.attempt fuel variant origin value = .ok result) variants verdicts)

include judged

/-- When the field at the key selects no option, a trial refuses. -/
theorem tallied_of_unchosen
    (unchosen : discriminator.chosen? variants (value.field discriminator.key) = none)
    (violations : List Violation) :
    (context.tallied variants value verdicts).Agree (.rejected violations) := by
  have lengths : (context.makers variants).length = verdicts.length := by
    rw [makers, List.length_map, judged.length_eq]
  have none : ∀ (index : Nat) (answer : Value), verdicts[index]? ≠ some (.accepted answer) := by
    intro index answer found
    obtain ⟨variant, listed, _, ended⟩ := forall₂_getElem?_right judged found
    have selected := selected_of_accepted verbatim inward sound decided complete keyed listed
      ⟨_, _, ended⟩
    rw [Discriminator.chosen?, selected, Option.bind_some, listed] at unchosen
    cases unchosen
  obtain ⟨violations', same⟩ := Validator.tally_verdict_of_none value 1 lengths none
  rw [tallied, same]
  exact .rejected violations' violations

/-- When the field at the key selects an option, a trial amounts to what that option says. -/
theorem tallied_of_chosen {variant : Schema}
    (chosen : discriminator.chosen? variants (value.field discriminator.key) = some variant)
    (place : Identity) :
    ∃ result, context.attempt fuel variant place value = .ok result ∧
      (context.tallied variants value verdicts).Agree result := by
  have lengths : (context.makers variants).length = verdicts.length := by
    rw [makers, List.length_map, judged.length_eq]
  obtain ⟨index, selected, listed⟩ := Option.bind_eq_some_iff.mp chosen
  have only : ∀ (other : Nat) (answer : Value), verdicts[other]? = some (.accepted answer) →
      other = index := by
    intro other answer found
    obtain ⟨variant', listed', _, ended⟩ := forall₂_getElem?_right judged found
    have selected' := selected_of_accepted verbatim inward sound decided complete keyed listed'
      ⟨_, _, ended⟩
    exact Option.some.inj (selected'.symm.trans selected)
  obtain ⟨verdict, found, origin, ended⟩ := forall₂_getElem? judged listed
  obtain ⟨result, ended', alike⟩ := attempt_follows
    (sound variant (List.mem_of_getElem? listed)) (Nat.le_refl fuel) origin place
    (Value.Like.refl (fun _ => trivial) value) _ ended
  refine ⟨result, ended', ?_⟩
  cases alike with
  | accepted same =>
    rw [tallied, Validator.tally_verdict_of_alone _ _ lengths found only]
    exact .accepted same
  | rejected violations =>
    have none : ∀ (other : Nat) (answer : Value), verdicts[other]? ≠ some (.accepted answer) := by
      intro other answer accepted
      obtain rfl := only other answer accepted
      cases found.symm.trans accepted
    obtain ⟨violations', same⟩ := Validator.tally_verdict_of_none value 1 lengths none
    rw [tallied, same]
    exact .rejected violations' violations

end

/-- Where a trial returns the dispatch returns, with the same answer if there is one. -/
theorem dispatch_of_trial {fuel : Nat} {place : Identity} {verdict : Verdict}
    (ended : Validator.run context.surroundings fuel (.oneOf (context.makers variants))
      context.settings place value = .ok verdict) (place' : Identity) :
    ∃ verdict', Validator.run context.surroundings fuel
        (.dispatch discriminator variants (context.makers variants)) context.settings place' value =
          .ok verdict' ∧ verdict.Agree verdict' := by
  obtain ⟨less, rfl, verdicts, judged, rfl⟩ := trial_ended ended
  obtain ⟨violations, dispatched⟩ := run_dispatch inward discriminator variants value
  rw [dispatched, complete]
  cases choice : discriminator.chosen? variants (value.field discriminator.key) with
  | none =>
    have refused := tallied_of_unchosen verbatim inward sound decided complete keyed judged choice
    exact ⟨_, rfl, refused violations⟩
  | some variant =>
    exact tallied_of_chosen verbatim inward sound decided complete keyed judged choice place'

/-- A dispatch yields what a trial yields, wherever the trial returns. The trial returns on
every value when the options are grounded and none of them takes lone scalars for arrays
without end. -/
theorem trial_yields_iff_dispatch_yields :
    (∀ answer, context.Yields (.oneOf (context.makers variants)) value answer ↔
      context.Yields (.ofUnion context.definitions variants (context.makers variants)) value
        answer ∧ context.Returns (.oneOf (context.makers variants)) value) ∧
    ((∀ variant ∈ variants, variant.Grounded context.definitions) →
      (context.settings.allowConvertForArrayType = true → ∀ variant ∈ variants,
        variant.Anchored context.definitions ∨
          value.Throughout (fun part => part.isLone = false)) →
      context.Returns (.oneOf (context.makers variants)) value) := by
  have dispatch : Validator.ofUnion context.definitions variants (context.makers variants) =
      .dispatch discriminator variants (context.makers variants) := by
    rw [Validator.ofUnion, decided]
  have trial := @dispatch_of_trial _ _ _ _ verbatim inward sound decided complete keyed
  rw [dispatch]
  refine ⟨fun answer => ⟨?_, ?_⟩, fun grounded spared => trial_returns sound
    (fun variant member => exists_judged (sound variant member) (grounded variant member)
      (fun taken => spared taken variant member))⟩
  · rintro ⟨bound, ends⟩
    refine ⟨⟨bound, fun fuel enough place => ?_⟩, bound, fun fuel enough place => ?_⟩
    · obtain ⟨result, ended, same⟩ := ends fuel enough place
      obtain ⟨verdict, ended', agree⟩ := trial ended place
      cases agree with
      | accepted alike => exact ⟨_, ended', (alike.symm).trans same⟩
    · obtain ⟨result, ended, _⟩ := ends fuel enough place
      exact ⟨_, ended⟩
  · rintro ⟨⟨bound, ends⟩, least, returns⟩
    refine ⟨max bound least, fun fuel enough place => ?_⟩
    obtain ⟨verdict, ended⟩ := returns fuel (by omega) place
    obtain ⟨result, ended', same⟩ := ends fuel (by omega) place
    obtain ⟨verdict', ended'', agree⟩ := trial ended place
    rw [ended'] at ended''
    obtain rfl := Except.ok.inj ended''
    cases agree with
    | accepted alike => exact ⟨_, ended, alike.trans same⟩

end

end Context

namespace Shapes

/-- A group of one circle. -/
def drawing : Value :=
  .object (.run 0) [("kind", .string "group"), ("members", .array (.run 1) [
    .object (.run 2) [("radius", .number radius), ("kind", .string "circle")] []]
    [])] []

/-- The kind of a shape discriminates its variants. -/
theorem find?_variants :
    Discriminator.find? definitions variants =
      some ⟨"kind", some "type", [(.string "circle", 0), (.string "group", 1)], []⟩ :=
  rfl

/-- The group is dispatched as it is tried, and the trial returns. -/
theorem trial_yields_iff :
    let context : Context := ⟨definitions, fun _ => none, .strict⟩
    (∀ answer, context.Yields (.oneOf (context.makers variants)) drawing answer ↔
      context.Yields (.ofUnion context.definitions variants
        (context.makers variants)) drawing answer ∧
      context.Returns (.oneOf (context.makers variants)) drawing) ∧
    context.Returns (.oneOf (context.makers variants)) drawing := by
  intro context
  have known : ∀ variant ∈ variants, variant ∈ nodes := by decide +kernel
  have sound : ∀ variant ∈ variants, context.Sound variant := fun variant member =>
    Shapes.sound _ _ (known variant member)
  have keyed : drawing.Keyed := by
    simp [drawing, Value.Keyed, Fields.Distinct, Fields.keys]
  obtain ⟨same, returns⟩ :=
    Context.trial_yields_iff_dispatch_yields ⟨rfl, rfl⟩ rfl sound find?_variants rfl keyed
  exact ⟨same, returns (fun variant member => grounded (known variant member))
    (fun taken => absurd taken Bool.false_ne_true)⟩

end Shapes

/-! ## Options of which one holds a nest -/

namespace Nest

/-- A plain thing. -/
def plain : Schema :=
  .object 2 [⟨"kind", true, none, .string 3 { allowed := [.string "plain"] }⟩] .keep

/-- A tree has a nest, which is checked before the kind. -/
def tree : Schema :=
  .object 4 [⟨"nest", true, none, nest⟩, ⟨"kind", true, none,
    .union 5 [.string 6 { allowed := [.string "oak"] }, .string 7 { allowed := [.string "elm"] }]⟩]
    .keep

/-- All nodes of things and trees. -/
def nodes : List Schema :=
  [.union 8 [plain, tree], plain, tree, nest, .array 1 nest none none,
    .string 3 { allowed := [.string "plain"] },
    .union 5 [.string 6 { allowed := [.string "oak"] }, .string 7 { allowed := [.string "elm"] }],
    .string 6 { allowed := [.string "oak"] }, .string 7 { allowed := [.string "elm"] }]

/-- The nodes are well-formed throughout. -/
theorem sound_nodes {schema : Schema} (member : schema ∈ nodes) : context.Sound schema := by
  refine Schema.throughout_of_closed nodes (by decide +kernel) ?_ member
  simp [nodes, plain, tree, nest, Schema.wellFormed_iff, Schema.DistinctNames,
    Schema.KnownFormats, Property.names]

/-- A plain thing with a further field. -/
def thing : Value :=
  .object (.run 0) [("nest", .string "x"), ("kind", .string "plain")] []

/-- The nest of a tree never judges a string. -/
theorem tree_exhausted (fuel : Nat) (place : Identity) :
    context.attempt fuel tree place thing = .error .exhausted := by
  rcases fuel with _ | less
  · rfl
  have order : Property.checkOrder context.definitions
      [⟨"nest", true, none, nest⟩, ⟨"kind", true, none, .union 5
        [.string 6 { allowed := [.string "oak"] }, .string 7 { allowed := [.string "elm"] }]⟩] [] =
      [0, 1] := by decide +kernel
  rw [Context.attempt_eq_attemptAs, tree, Context.attemptAs_object, order]
  exact Validator.checkObject_stopped (by decide) rfl rfl (attempt_exhausted rfl _ _)

/-- The dispatch takes the thing for a plain one. The trial asks for a tree too, and never
returns. -/
theorem dispatch_yields_trial_hangs :
    context.settings.Verbatim ∧ context.settings.convertFromNetwork = false ∧
      (∀ variant ∈ [plain, tree], context.Sound variant) ∧
      (∃ discriminator, Discriminator.find? context.definitions [plain, tree] = some discriminator ∧
        discriminator.rest = []) ∧
      thing.Keyed ∧
      ∃ answer, context.Yields
          (.ofUnion context.definitions [plain, tree] (context.makers [plain, tree])) thing answer ∧
        ¬ context.Yields (.oneOf (context.makers [plain, tree])) thing answer ∧
        ∀ fuel place verdict, Validator.run context.surroundings fuel
          (.oneOf (context.makers [plain, tree])) context.settings place thing ≠ .ok verdict := by
  have known : ∀ variant ∈ [plain, tree], variant ∈ nodes := by decide +kernel
  have hangs : ∀ fuel place verdict, Validator.run context.surroundings fuel
      (.oneOf (context.makers [plain, tree])) context.settings place thing ≠ .ok verdict := by
    intro fuel place verdict ended
    obtain ⟨less, rfl, verdicts, judged, rfl⟩ := Context.trial_ended ended
    cases judged with
    | cons _ rest =>
    cases rest with
    | cons judged _ =>
    obtain ⟨origin, ended⟩ := judged
    rw [tree_exhausted] at ended
    cases ended
  obtain ⟨answer, ended⟩ : ∃ answer, context.attempt 10 (.union 8 [plain, tree]) (.run 1) thing =
      .ok (.accepted answer) := ⟨_, rfl⟩
  refine ⟨⟨rfl, rfl⟩, rfl, fun variant member => sound_nodes (known variant member),
    ⟨_, rfl, rfl⟩, by simp [thing, Value.Keyed, Fields.Distinct, Fields.keys], answer,
    Context.yields_of_judged (sound_nodes (.head _)) ⟨10, .run 1, ended⟩, ?_, hangs⟩
  rintro ⟨bound, ends⟩
  obtain ⟨result, ended, _⟩ := ends bound (Nat.le_refl bound) (.run 1)
  exact hangs _ _ _ ended

end Nest

end Conform
