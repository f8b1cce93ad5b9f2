import Conform.Proofs.Attempt.Ends

/-!
# Validation terminates

A grounded schema judges every value after finitely many nested calls, unless arrays may
take lone scalars for their only items. Then the items of an array judge the very scalar
that the array was given, and a schema that recurs by way of an array alone judges the
scalar without end. It takes an anchored schema, or a value without such scalars, for
validation to terminate there.
-/

namespace Conform

namespace Context

variable {context : Context} {schema : Schema}

/-- Whatever the options, a grounded schema settles on a value. When lone scalars may be taken
for arrays, the schema has to recur by way of objects alone, or the value to hold no such
scalar. -/
theorem exists_settles (sound : context.Sound schema)
    (grounded : schema.Grounded context.definitions) {value : Value}
    (spared : context.settings.allowConvertForArrayType = true →
      schema.Anchored context.definitions ∨ value.Throughout (fun part => part.isLone = false)) :
    ∃ arrays, context.Admits arrays value ∧
      context.Settles arrays (value.nesting arrays) schema := by
  by_cases anchored : schema.Anchored context.definitions
  · exact ⟨false, nofun, settles_of_chains false sound anchored _⟩
  · refine ⟨true, fun _ taken => ?_, settles_of_chains true sound grounded _⟩
    exact (spared taken).resolve_left anchored

/-- Whatever the options, validation by a grounded schema returns a verdict once it may nest
enough calls. When lone scalars may be taken for arrays, the schema has to recur by way of
objects alone, or the value to hold no such scalar. -/
theorem attempt_terminates (sound : context.Sound schema)
    (grounded : schema.Grounded context.definitions) {value : Value}
    (spared : context.settings.allowConvertForArrayType = true →
      schema.Anchored context.definitions ∨ value.Throughout (fun part => part.isLone = false)) :
    ∃ bound, ∀ place, ∃ verdict, ∀ fuel, bound ≤ fuel →
      context.attempt fuel schema place value = .ok verdict := by
  obtain ⟨arrays, admitted, settles⟩ := exists_settles sound grounded spared
  obtain ⟨bound, ends⟩ := settles.ends
  refine ⟨bound, fun place => ?_⟩
  obtain ⟨verdict, ended⟩ := ends bound (Nat.le_refl bound) place value admitted (Nat.le_refl _)
  exact ⟨verdict, fun fuel enough => attempt_mono sound enough ended⟩

/-- A grounded schema judges every value, unless lone scalars may be taken for arrays without
end. -/
theorem exists_judged (sound : context.Sound schema)
    (grounded : schema.Grounded context.definitions)
    (spared : context.settings.allowConvertForArrayType = true →
      schema.Anchored context.definitions ∨ value.Throughout (fun part => part.isLone = false)) :
    ∃ verdict, context.Judges schema value verdict := by
  obtain ⟨arrays, admitted, settles⟩ := exists_settles sound grounded spared
  obtain ⟨bound, ends⟩ := settles.ends
  obtain ⟨verdict, ended⟩ := ends bound (Nat.le_refl bound) (.run 0) value admitted (Nat.le_refl _)
  exact ⟨verdict, bound, .run 0, ended⟩

end Context

namespace Shapes

/-- A group whose members are a lone string. -/
def stray : Value :=
  .object (.run 0) [("kind", .string "group"), ("members", .string "circle")] []

/-- The string is taken for the only member, and validation comes to an end. -/
theorem stray_terminates :
    let context : Context :=
      ⟨definitions, fun _ => none, { Options.strict with allowConvertForArrayType := true }⟩
    ∃ bound, ∀ place, ∃ verdict, ∀ fuel, bound ≤ fuel →
      context.attempt fuel shape place stray = .ok verdict :=
  Context.attempt_terminates (sound _ _ (.head _)) (grounded (.head _))
    (fun _ => .inl (anchored (.head _)))

end Shapes

/-! ## A family that recurs by way of an array alone -/

namespace Nest

/-- A nest holds nests. -/
def nest : Schema :=
  .named ⟨0, "Nest"⟩

/-- What the name stands for. -/
def definitions (_ : NamedRef) : Schema :=
  .array 1 nest none none

/-- Lone scalars are taken for arrays. -/
def context : Context :=
  ⟨definitions, fun _ => none, { Options.strict with allowConvertForArrayType := true }⟩

/-- What holds of a nest and of what its name stands for holds throughout. -/
theorem throughout_nest {holds : Schema → Prop} (here : holds nest)
    (there : holds (.array 1 nest none none)) : nest.Throughout definitions holds := by
  refine Schema.throughout_of_closed [nest, .array 1 nest none none] (by decide +kernel) ?_
    (.head _)
  simp [here, there]

/-- A nest is well-formed throughout. -/
theorem sound_nest (format : String → Option Validator) (settings : Options) :
    Context.Sound ⟨definitions, format, settings⟩ nest :=
  throughout_nest ⟨trivial, trivial⟩ ⟨trivial, trivial⟩

/-- A nest recurs by way of an array. -/
theorem grounded_nest : nest.Grounded definitions :=
  Schema.grounded_of_rank (fun node => if node.isContainer then 0 else 1)
    (throughout_nest (by decide +kernel) (by decide +kernel))

/-- A lone scalar is taken for a nest of itself, so that the calls nest as deeply as they may. -/
theorem attempt_exhausted {scalar : Value} (lone : scalar.isLone = true) (fuel : Nat)
    (place : Identity) : context.attempt fuel nest place scalar = .error .exhausted := by
  have taken : Validator.itemsOf? context.settings scalar = some [scalar] := by
    cases scalar <;> first | rfl | cases lone
  induction fuel using Nat.strongRecOn generalizing place with
  | ind fuel ih =>
  -- the name, the array and the item take three calls
  rcases fuel with _ | _ | _ | less
  · rfl
  · rfl
  · rfl
  have named : context.attempt (less + 3) nest place scalar =
      context.attemptAs nest (less + 1) (.array 1 nest none none) place scalar :=
    context.attempt_named_container (less + 1) place scalar rfl
  have counted : Validator.countReason? none none [scalar].length = none := rfl
  have item := ih less (by omega) (place.part 0)
  rw [named, Context.attemptAs_array]
  simp only [Validator.checkArray, taken, counted, Validator.checkItems, item]

/-- A nest is grounded, and yet validation of a string by it never ends, as the string is
taken for a nest of itself. -/
theorem string_never_ends :
    let context : Context :=
      ⟨definitions, fun _ => none, { Options.strict with allowConvertForArrayType := true }⟩
    context.Sound nest ∧ nest.Grounded definitions ∧
      ∀ fuel place, context.attempt fuel nest place (.string "x") = .error .exhausted :=
  ⟨sound_nest _ _, grounded_nest, attempt_exhausted rfl⟩

end Nest

end Conform
