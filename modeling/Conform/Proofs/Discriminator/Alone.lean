import Conform.Proofs.Discriminator.Dispatch
import Mathlib.Data.List.NodupEquivFin

/-!
# The only option that accepts

When one option of a union accepts a value and every other refuses it, a trial of the options
accepts it with what that option answers. A discriminator runs the option that the field at its
key selects, or tries the options left aside, so it does so too where the field leads to the
option that accepts.

An option with candidates accepts nothing that does not stand for one of its literals at the key,
so as long as strings are taken as they are, the field leads to it. Options left aside accept
whatever stands at the key, the literals of other options among it, and then the other option
refuses for the union. Where strings are read as numbers or truth values, an option may accept
the reading of a string that selects another option, or none.
-/

namespace Conform

/-- The field at the key leads to the option only once it is read: taken as it is, it selects
another option or none. -/
def Discriminator.Overlooks (options : Options) (discriminator : Discriminator)
    (variants : List Schema) (index : Nat) (found : Value) : Prop :=
  discriminator.chosen? variants found ≠ variants[index]? ∧
    ∃ literal, found.ReadAs options literal ∧ discriminator.variantOf? literal = some index

namespace Context

/-- One option of a union accepts the value, with the answer, and every other refuses it. -/
structure Alone (context : Context) (variants : List Schema) (value : Value) (index : Nat)
    (variant : Schema) (answer : Value) : Prop where
  listed : variants[index]? = some variant
  accepted : context.Judges variant value (.accepted answer)
  others : ∀ (other : Nat) (rival : Schema), other ≠ index → variants[other]? = some rival →
    ∃ violations, context.Judges rival value (.rejected violations)

variable {context : Context} {node : Nat} {variants : List Schema} {schema variant rival : Schema}
  {index : Nat} {value answer : Value} {verdict : Verdict} {discriminator : Discriminator}

/-- What a schema once refused it never accepts. -/
theorem not_accepted_of_refused (sound : context.Sound schema) {violations : List Violation}
    (refused : context.Judges schema value (.rejected violations)) :
    ¬ context.Judges schema value (.accepted answer) := by
  intro accepted
  cases judged_alike sound refused accepted

/-! ## Trials -/

/-- The only option that accepts is the only one among any options that remain of the union. -/
theorem Alone.sublist (sound : ∀ variant ∈ variants, context.Sound variant)
    (alone : context.Alone variants value index variant answer) {remaining : List Schema}
    (part : remaining.Sublist variants) (member : variant ∈ remaining) :
    ∃ position, context.Alone remaining value position variant answer := by
  obtain ⟨embedding, places⟩ := List.sublist_iff_exists_orderEmbedding_getElem?_eq.mp part
  obtain ⟨position, listed⟩ := List.getElem?_of_mem member
  -- the place where the option stood must be its own, as every other option refuses
  have own : embedding position = index := by
    by_contra distinct
    obtain ⟨violations, refused⟩ := alone.others _ variant distinct (places position ▸ listed)
    exact not_accepted_of_refused (sound variant (List.mem_of_getElem? alone.listed)) refused
      alone.accepted
  refine ⟨position, listed, alone.accepted, fun other rival distinct found => ?_⟩
  refine alone.others (embedding other) rival (fun same => distinct ?_) (places other ▸ found)
  exact embedding.injective (same.trans own.symm)

/-- Each option has a verdict of its own. -/
theorem Alone.judged (alone : context.Alone variants value index variant answer)
    (member : schema ∈ variants) : ∃ verdict, context.Judges schema value verdict := by
  obtain ⟨other, listed⟩ := List.getElem?_of_mem member
  by_cases same : other = index
  · subst same
    obtain rfl := Option.some.inj (listed.symm.trans alone.listed)
    exact ⟨_, alone.accepted⟩
  · obtain ⟨violations, refused⟩ := alone.others other schema same listed
    exact ⟨_, refused⟩

/-- A trial accepts with what the only option that accepts answers. -/
theorem Alone.trial_yields (sound : ∀ variant ∈ variants, context.Sound variant)
    (alone : context.Alone variants value index variant answer) :
    context.Yields (.oneOf (context.makers variants)) value answer := by
  obtain ⟨bound, returns⟩ := trial_returns sound (fun _ => alone.judged)
  refine ⟨bound, fun fuel enough place => ?_⟩
  obtain ⟨verdict, ended⟩ := returns fuel enough place
  obtain ⟨_, _, verdicts, judged, rfl⟩ := trial_ended ended
  have lengths : (context.makers variants).length = verdicts.length := by
    rw [makers, List.length_map, judged.length_eq]
  have only : ∀ (other : Nat) (answer' : Value), verdicts[other]? = some (.accepted answer') →
      other = index := by
    intro other answer' found
    by_contra distinct
    obtain ⟨rival, listed, origin, accepted⟩ := forall₂_getElem?_right judged found
    obtain ⟨violations, refused⟩ := alone.others other rival distinct listed
    exact not_accepted_of_refused (sound rival (List.mem_of_getElem? listed)) refused
      ⟨_, origin, accepted⟩
  obtain ⟨verdict, found, origin, own⟩ := forall₂_getElem? judged alone.listed
  cases judged_alike (sound variant (List.mem_of_getElem? alone.listed)) alone.accepted
    ⟨_, origin, own⟩ with
  | accepted same =>
    exact ⟨_, ended.trans (congrArg Except.ok
      (Validator.tally_verdict_of_alone value 1 lengths found only)), same.symm (fun _ _ => id)⟩

/-! ## Dispatches -/

/-- A union with a discriminator is attempted as a dispatch. -/
theorem attempt_eq_dispatch
    (decided : Discriminator.find? context.definitions variants = some discriminator) (node : Nat)
    (fuel : Nat) (place : Identity) (value : Value) :
    context.attempt (fuel + 1) (.union node variants) place value =
      Validator.run context.surroundings (fuel + 1)
        (.dispatch discriminator variants (context.makers variants)) context.settings place
        value := by
  rw [attempt_union_some _ _ _ _ decided, Validator.run]

section

variable (inward : context.settings.convertFromNetwork = false)
  (decided : Discriminator.find? context.definitions variants = some discriminator)

include inward decided

/-- A union yields what the option that the field at the key selects answers. -/
theorem yields_of_chosen (sound : context.Sound (.union node variants))
    (chosen : discriminator.chosen? variants (value.field discriminator.key) = some variant)
    (judged : context.Judges variant value (.accepted answer)) :
    context.Yields ((Schema.union node variants).validator context.definitions) value answer := by
  obtain ⟨violations, dispatched⟩ := run_dispatch inward discriminator variants value
  obtain ⟨fuel, place, ended⟩ := judged
  refine yields_of_judged sound ⟨fuel + 1, place, ?_⟩
  rw [attempt_eq_dispatch decided, dispatched, chosen]
  exact ended

/-- A union yields what the options left aside yield, where the field at the key selects none. -/
theorem yields_of_aside
    (unchosen : discriminator.chosen? variants (value.field discriminator.key) = none)
    (left : discriminator.rest ≠ [])
    (yields : context.Yields (.oneOf (context.makers (discriminator.aside variants))) value
      answer) :
    context.Yields ((Schema.union node variants).validator context.definitions) value answer := by
  obtain ⟨violations, dispatched⟩ := run_dispatch inward discriminator variants value
  obtain ⟨bound, yielded⟩ := yields
  refine ⟨bound + 1, fun fuel enough place => ?_⟩
  obtain ⟨less, rfl, within⟩ := exists_eq_add_of_add_le enough
  obtain ⟨result, ended, same⟩ := yielded less within place
  refine ⟨result, ?_, same⟩
  change context.attempt (less + 1) (.union node variants) place value = _
  rw [attempt_eq_dispatch decided, dispatched, unchosen]
  simpa [left] using ended

/-- What the option selected by the field at the key refuses, the union refuses with the same
violations. -/
theorem refused_of_chosen {violations : List Violation}
    (chosen : discriminator.chosen? variants (value.field discriminator.key) = some rival)
    (refused : context.Judges rival value (.rejected violations)) :
    context.Judges (.union node variants) value (.rejected violations) := by
  obtain ⟨_, dispatched⟩ := run_dispatch inward discriminator variants value
  obtain ⟨fuel, place, ended⟩ := refused
  refine ⟨fuel + 1, place, ?_⟩
  rw [attempt_eq_dispatch decided, dispatched, chosen]
  exact ended

/-- A union without options left aside refuses where the field at the key selects none. -/
theorem refused_of_unchosen (node : Nat) (complete : discriminator.rest = [])
    (unchosen : discriminator.chosen? variants (value.field discriminator.key) = none) :
    ∃ violations, context.Judges (.union node variants) value (.rejected violations) := by
  obtain ⟨violations, dispatched⟩ := run_dispatch inward discriminator variants value
  refine ⟨violations, 1, .run 0, ?_⟩
  rw [attempt_eq_dispatch decided, dispatched, unchosen, complete]
  rfl

/-- Another option than the only one that accepts refuses the value, and the union with it, where
the field at the key selects that other option. -/
theorem Alone.hidden (alone : context.Alone variants value index variant answer)
    (chosen : discriminator.chosen? variants (value.field discriminator.key) = some rival)
    (other : rival ≠ variant) :
    ∃ violations, context.Judges rival value (.rejected violations) ∧
      context.Judges (.union node variants) value (.rejected violations) := by
  obtain ⟨position, _, listed⟩ := Option.bind_eq_some_iff.mp chosen
  have distinct : position ≠ index := by
    rintro rfl
    exact other (Option.some.inj (listed.symm.trans alone.listed))
  obtain ⟨violations, refused⟩ := alone.others position rival distinct listed
  exact ⟨violations, refused, refused_of_chosen inward decided chosen refused⟩

end

section

variable (inward : context.settings.convertFromNetwork = false)
  (sound : context.Sound (.union node variants))
  (decided : Discriminator.find? context.definitions variants = some discriminator)

include inward sound decided

/-- A union yields what the only option that accepts answers, where the option is left aside and
the field at the key selects none. -/
theorem Alone.aside_yields (alone : context.Alone variants value index variant answer)
    (member : variant ∈ discriminator.aside variants)
    (unchosen : discriminator.chosen? variants (value.field discriminator.key) = none) :
    context.Yields ((Schema.union node variants).validator context.definitions) value answer := by
  have options : ∀ option ∈ variants, context.Sound option := fun option => sound.facet
  have part : (discriminator.aside variants).Sublist variants := by
    rw [Discriminator.aside_eq_filter decided]
    exact List.filter_sublist
  have left : discriminator.rest ≠ [] := by
    intro complete
    simp [Discriminator.aside, complete] at member
  obtain ⟨position, alone⟩ := alone.sublist options part member
  exact yields_of_aside inward decided unchosen left
    (alone.trial_yields (fun option member => options option (part.subset member)))

variable (keyed : value.Keyed)

include keyed

/-- When strings are taken as they are, a union yields what the only option that accepts answers,
unless the field at the key holds a literal of another option: then that option refuses the
value, and the union with the same violations. -/
theorem verbatim_match_dispatched (verbatim : context.settings.Verbatim)
    (alone : context.Alone variants value index variant answer) :
    ((∀ rival, discriminator.chosen? variants (value.field discriminator.key) = some rival →
        rival = variant) →
      context.Yields ((Schema.union node variants).validator context.definitions) value answer) ∧
    ∀ rival, discriminator.chosen? variants (value.field discriminator.key) = some rival →
      rival ≠ variant → ∃ violations, context.Judges rival value (.rejected violations) ∧
        context.Judges (.union node variants) value (.rejected violations) := by
  refine ⟨fun own => ?_, fun rival => alone.hidden inward decided⟩
  cases chosen : discriminator.chosen? variants (value.field discriminator.key) with
  | some rival =>
    obtain rfl := own rival chosen
    exact yields_of_chosen inward decided sound chosen alone.accepted
  | none =>
    refine alone.aside_yields inward sound decided ?_ chosen
    -- an option with candidates would have been selected by the literal that it accepted
    by_contra tagged
    obtain ⟨literal, stands, owned⟩ := owned_of_accepted inward decided keyed
      (sound.facet (List.mem_of_getElem? alone.listed)) alone.listed tagged alone.accepted
    have selected := Discriminator.chosen?_of_owned (stands.verbatim verbatim) owned variants
    rw [chosen, alone.listed] at selected
    cases selected

/-- A union that leaves no option aside yields what the only option that accepts answers, however
strings are read, unless the field at the key leads to the option only once it is read: then the
union refuses. -/
theorem lenient_match_dispatched (complete : discriminator.rest = [])
    (alone : context.Alone variants value index variant answer) :
    (¬ discriminator.Overlooks context.settings variants index (value.field discriminator.key) →
      context.Yields ((Schema.union node variants).validator context.definitions) value answer) ∧
    (discriminator.Overlooks context.settings variants index (value.field discriminator.key) →
      ∃ violations, context.Judges (.union node variants) value (.rejected violations)) := by
  constructor
  · intro seen
    refine yields_of_chosen inward decided sound ?_ alone.accepted
    by_contra unchosen
    rw [← alone.listed] at unchosen
    have tagged : variant ∉ discriminator.aside variants := by
      simp [Discriminator.aside, complete]
    obtain ⟨literal, denoted | read, owned⟩ := owned_of_accepted inward decided keyed
      (sound.facet (List.mem_of_getElem? alone.listed)) alone.listed tagged alone.accepted
    · exact unchosen (Discriminator.chosen?_of_owned denoted owned variants)
    · exact seen ⟨unchosen, literal, read, owned⟩
  · rintro ⟨unchosen, _⟩
    rw [alone.listed] at unchosen
    cases chosen : discriminator.chosen? variants (value.field discriminator.key) with
    | none => exact refused_of_unchosen inward decided node complete chosen
    | some rival =>
      obtain ⟨violations, _, refused⟩ := alone.hidden inward decided chosen
        (fun same => unchosen (chosen.trans (congrArg some same)))
      exact ⟨violations, refused⟩

end

end Context

namespace Shapes

/-- A note has a text, and whatever else it holds. -/
def note : Schema :=
  .object 17 [⟨"text", true, none, .string 18 {}⟩] .keep

/-- The variants of shapes, and notes. -/
def annotated : List Schema :=
  variants ++ [note]

/-- A note without a kind. -/
def remark : Value :=
  .object (.run 0) [("text", .string "x")] []

/-- A note that is labelled as a circle. -/
def labelled : Value :=
  .object (.run 0) [("text", .string "x"), ("kind", .string "circle")] []

/-- The nodes of shapes and notes. -/
def annotatedNodes : List Schema :=
  .union 19 annotated :: note :: .string 18 {} :: nodes

/-- The schemas of shapes and notes are well-formed throughout. -/
theorem annotated_sound (format : String → Option Validator) (settings : Options) :
    Context.Sound ⟨definitions, format, settings⟩ (.union 19 annotated) := by
  have closed : ∀ node ∈ annotatedNodes, ∀ part ∈ node.parts definitions,
      part ∈ annotatedNodes := by
    decide +kernel
  refine Schema.throughout_of_closed annotatedNodes closed ?_ (.head _)
  simp [annotatedNodes, nodes, annotated, note, Schema.wellFormed_iff, Schema.DistinctNames,
    Schema.KnownFormats, shape, circle, group, Property.names]

/-- The kind of a shape discriminates the variants, and leaves notes aside. -/
theorem find?_annotated :
    Discriminator.find? definitions annotated =
      some ⟨"kind", some "type", [(.string "circle", 0), (.string "group", 1)], [2]⟩ :=
  rfl

/-- Only notes accept a note, labelled or not. -/
theorem note_alone {value : Value} (among : value = remark ∨ value = labelled) :
    Context.Alone ⟨definitions, fun _ => none, .strict⟩ annotated value 2 note
      (value.withTags [note]) := by
  refine ⟨rfl, ?_, ?_⟩
  · rcases among with rfl | rfl <;> exact ⟨9, .run 0, rfl⟩
  · intro other rival distinct listed
    rcases other with _ | _ | _ | other
    · obtain rfl := Option.some.inj listed
      rcases among with rfl | rfl <;> exact ⟨_, 9, .run 0, rfl⟩
    · obtain rfl := Option.some.inj listed
      rcases among with rfl | rfl <;> exact ⟨_, 9, .run 0, rfl⟩
    · exact absurd rfl distinct
    · cases listed

/-- A note without a kind is yielded. -/
theorem remark_dispatched :
    Context.Yields ⟨definitions, fun _ => none, .strict⟩
      ((Schema.union 19 annotated).validator definitions) remark (remark.withTags [note]) := by
  have keyed : remark.Keyed := by simp [remark, Value.Keyed, Fields.Distinct, Fields.keys]
  obtain ⟨yields, _⟩ := Context.verbatim_match_dispatched rfl (annotated_sound _ _) find?_annotated
    keyed ⟨rfl, rfl⟩ (note_alone (.inl rfl))
  exact yields (fun rival chosen => by cases chosen)

/-- A note that is labelled as a circle is refused, though notes alone accept it. -/
theorem labelled_hidden :
    let context : Context := ⟨definitions, fun _ => none, .strict⟩
    (∃ discriminator, Discriminator.find? definitions annotated = some discriminator ∧
      discriminator.rest ≠ []) ∧
      context.Alone annotated labelled 2 note (labelled.withTags [note]) ∧
      ¬ context.Yields ((Schema.union 19 annotated).validator definitions) labelled
        (labelled.withTags [note]) := by
  refine ⟨⟨_, find?_annotated, by simp⟩, note_alone (.inr rfl), ?_⟩
  rintro ⟨bound, yields⟩
  obtain ⟨result, ended, _⟩ := yields bound (Nat.le_refl bound) (.run 0)
  exact Context.not_accepted_of_refused (annotated_sound _ _) ⟨9, .run 0, rfl⟩ ⟨_, _, ended⟩

end Shapes

/-! ## A family that truth values tell apart -/

namespace Lamps

/-- A lamp that is lit says whether it is dimmed. -/
def lit : Schema :=
  .object 1 [⟨"on", true, none, .boolean 2 { allowed := [.bool true] }⟩,
    ⟨"dimmed", true, none, .boolean 3 {}⟩] .deny

/-- A lamp that is not lit. -/
def dark : Schema :=
  .object 4 [⟨"on", true, none, .boolean 5 { allowed := [.bool false] }⟩] .deny

/-- The variants of lamps. -/
def variants : List Schema :=
  [lit, dark]

/-- What judges lamps as they arrive in parameters. -/
def context : Context :=
  ⟨fun _ => .unknown, fun _ => none, .forParameters⟩

/-- A lamp that is lit. -/
def lamp (on dimmed : Value) (tags : Tags) : Value :=
  .object (.run 0) [("on", on), ("dimmed", dimmed)] tags

/-- Whether a lamp is lit discriminates its variants. -/
theorem find?_variants :
    Discriminator.find? context.definitions variants =
      some ⟨"on", none, [(.bool true, 0), (.bool false, 1)], []⟩ :=
  rfl

/-- The nodes of lamps. -/
def nodes : List Schema :=
  [.union 6 variants, lit, dark, .boolean 2 { allowed := [.bool true] }, .boolean 3 {},
    .boolean 5 { allowed := [.bool false] }]

/-- The schemas of lamps are well-formed throughout. -/
theorem sound : context.Sound (.union 6 variants) := by
  have closed : ∀ node ∈ nodes, ∀ part ∈ node.parts context.definitions, part ∈ nodes := by
    decide +kernel
  refine Schema.throughout_of_closed nodes closed ?_ (.head _)
  simp [nodes, variants, lit, dark, Schema.wellFormed_iff, Schema.DistinctNames,
    Schema.KnownFormats, Property.names]

/-- A lit lamp is accepted as such alone, whether it says so by a truth value or by a string. -/
theorem lamp_alone {on : Value} (among : on = .bool true ∨ on = .string "true") :
    context.Alone variants (lamp on (.string "false") []) 0 lit
      (lamp (.bool true) (.bool false) [lit]) := by
  refine ⟨rfl, ?_, ?_⟩
  · rcases among with rfl | rfl <;> exact ⟨9, .run 0, rfl⟩
  · intro other rival distinct listed
    rcases other with _ | _ | other
    · exact absurd rfl distinct
    · obtain rfl := Option.some.inj listed
      rcases among with rfl | rfl <;> exact ⟨_, 9, .run 0, rfl⟩
    · cases listed

/-- A lamp that is lit by a truth value is yielded, with its other fields read. -/
theorem lamp_dispatched :
    context.Yields ((Schema.union 6 variants).validator context.definitions)
      (lamp (.bool true) (.string "false") []) (lamp (.bool true) (.bool false) [lit]) := by
  have keyed : (lamp (.bool true) (.string "false") []).Keyed := by
    simp [lamp, Value.Keyed, Fields.Distinct, Fields.keys]
  refine (Context.lenient_match_dispatched rfl sound find?_variants keyed rfl
    (lamp_alone (.inl rfl))).1 ?_
  rintro ⟨unchosen, _⟩
  exact unchosen rfl

/-- A lamp that is lit by a string is refused, though it is accepted as a lit one alone. -/
theorem lamp_overlooked :
    (∃ discriminator, Discriminator.find? context.definitions variants = some discriminator ∧
      discriminator.rest = []) ∧
    context.Alone variants (lamp (.string "true") (.string "false") []) 0 lit
      (lamp (.bool true) (.bool false) [lit]) ∧
    ¬ context.Yields ((Schema.union 6 variants).validator context.definitions)
      (lamp (.string "true") (.string "false") []) (lamp (.bool true) (.bool false) [lit]) := by
  refine ⟨⟨_, find?_variants, rfl⟩, lamp_alone (.inr rfl), ?_⟩
  rintro ⟨bound, yields⟩
  obtain ⟨result, ended, _⟩ := yields bound (Nat.le_refl bound) (.run 0)
  exact Context.not_accepted_of_refused sound ⟨9, .run 0, rfl⟩ ⟨_, _, ended⟩

end Lamps

end Conform
