import Conform.Proofs.Attempt.Answers
import Conform.Proofs.Revalidation.Scalars

/-!
# What strings are read as

The options may have a string read as a number or as a truth value. So a value stands for the
literal that it denotes and, when it is a string, for those that it is read as. When keys are
read as they are here, an answer denotes no literal that the value did not stand for, at the top
and under each key: what has been read is no string any more and is not read again.
-/

namespace Conform

namespace Value

variable {options : Options} {literal : Literal} {value middle : Value}

/-- The value is a string that the options have read as the literal. -/
inductive ReadAs (options : Options) (literal : Literal) : Value → Prop
  | number {text : String} {numeric : Numeric}
      (read : readNumeric? options (.string text) = some numeric)
      (same : (Literal.number numeric.reading).same literal = true) :
      ReadAs options literal (.string text)
  | truth {text : String} {found : Bool} (read : readBool? options (.string text) = some found)
      (same : (Literal.bool found).same literal = true) : ReadAs options literal (.string text)

/-- The value denotes the literal or is read as it. -/
def StandsFor (options : Options) (value : Value) (literal : Literal) : Prop :=
  value.literal? = some literal ∨ value.ReadAs options literal

/-- Strings that are taken as they are stand for themselves. -/
theorem StandsFor.verbatim (verbatim : options.Verbatim)
    (stands : value.StandsFor options literal) : value.literal? = some literal := by
  refine stands.resolve_right (fun read => ?_)
  cases read with
  | number read => simp [readNumeric?, verbatim.numbers] at read
  | truth read => simp [readBool?, verbatim.booleans] at read

/-- What stands for a literal after a step stood for it before, when the step makes no new
literals. -/
theorem StandsFor.before
    (kept : ∀ literal, middle.literal? = some literal → value.StandsFor options literal)
    (stands : middle.StandsFor options literal) : value.StandsFor options literal := by
  rcases stands with denoted | read
  · exact kept literal denoted
  -- a string that is read was a string before, since nothing is read as a string
  have string : ∀ text, middle = .string text → value = .string text := by
    rintro text rfl
    rcases kept (.string text) rfl with denoted | ⟨_, same⟩ | ⟨_, same⟩
    · cases value <;> simp_all [literal?]
    · cases same
    · cases same
  cases read with
  | number read same => exact .inr (string _ rfl ▸ .number read same)
  | truth read same => exact .inr (string _ rfl ▸ .truth read same)

end Value

/-- A truth value that is answered is given or read. -/
theorem checkBoolean_standsFor {rules : BooleanRules} {options : Options} {value answer : Value}
    {literal : Literal} (accepted : checkBoolean rules options value = .accepted answer)
    (denoted : answer.literal? = some literal) : value.StandsFor options literal := by
  unfold checkBoolean at accepted
  split at accepted
  · next found read =>
    obtain ⟨_, rfl⟩ := Verdict.unless_accepted accepted
    obtain rfl := Option.some.inj denoted
    cases value with
    | bool value =>
      obtain rfl := Option.some.inj read
      exact .inl rfl
    | string text => exact .inr (.truth read (Literal.same_refl _))
    | _ => cases read
  · cases accepted

/-- A number that is answered is given, or has the value of one that is read. -/
theorem checkNumber_standsFor {whole : Bool} {rules : NumberRules} {options : Options}
    {value answer : Value} {literal : Literal}
    (accepted : checkNumber whole rules options value = .accepted answer)
    (denoted : answer.literal? = some literal) : value.StandsFor options literal := by
  unfold checkNumber at accepted
  split at accepted
  · cases accepted
  · next numeric read =>
    split at accepted
    · cases accepted
    · next fits =>
      split at accepted
      · cases accepted
      · obtain ⟨_, rfl⟩ := Verdict.unless_accepted accepted
        obtain rfl := Option.some.inj denoted
        cases value with
        | number number =>
          obtain rfl := Option.some.inj read
          exact .inl rfl
        | string text =>
          have same : (numeric.answer whole).toBinary64.signedUnits =
              numeric.reading.signedUnits :=
            Numeric.signedUnits_answer (readNumeric?_given read) (by simpa using fits)
          exact .inr (.number read (by simp [Literal.same, Binary64.numericEq, same]))
        | _ => cases read

namespace Validator

variable {judges : Schema → Value → Verdict → Prop} {drop : Bool}
  {properties : List (Property Schema)} {additional : Additional Schema}
  {fields answers : Fields Value}

/-- A literal among the answers is one that the field under the same key stands for, when this
is so for the bodies. -/
theorem FieldsStep.standsFor_lookup {options : Options} (distinct : fields.Distinct)
    (kept : ∀ body ∈ properties.map Property.body ++ additional.bodies, ∀ item answer literal,
      judges body item (.accepted answer) → answer.literal? = some literal →
      item.StandsFor options literal)
    (step : FieldsStep judges false drop properties additional fields answers) {key : String}
    {literal : Literal} (found : (answers.lookup key).literal? = some literal) :
    (fields.lookup key).StandsFor options literal := by
  have member := Fields.mem_of_lookup (Value.isUndefined_of_literal? found)
  obtain ⟨item, inside, _, how⟩ := step.under_key member
  rw [Fields.lookup_of_mem distinct inside]
  rcases how with ⟨_, same⟩ | ⟨body, listed, judged⟩
  · exact .inl (same ▸ found)
  · exact kept body listed _ _ _ judged found

end Validator

namespace Context

variable {context : Context} {schema : Schema} {value answer : Value}

/-- A leaf answers with a literal that the value stands for. -/
theorem leaf_standsFor (leaf : schema.isLeaf = true) (known : schema.KnownFormats context.format)
    (judged : context.Judges schema value (.accepted answer)) {literal : Literal}
    (denoted : answer.literal? = some literal) :
    value.StandsFor context.settings literal := by
  have ended := leaf_settled leaf known judged 0 (.run 0)
  cases schema with
  | boolean node rules => exact checkBoolean_standsFor (Except.ok.inj ended) denoted
  | integer node rules => exact checkNumber_standsFor (Except.ok.inj ended) denoted
  | number node rules => exact checkNumber_standsFor (Except.ok.inj ended) denoted
  | string node rules =>
    obtain ⟨verdict, checked, kept⟩ := checkString_textForm known 0 (.run 0)
    obtain rfl := kept answer (Except.ok.inj (checked.symm.trans ended))
    exact .inl denoted
  | unknown =>
    obtain rfl := Verdict.accepted.inj (Except.ok.inj ended)
    exact .inl denoted
  | void =>
    cases value <;> cases ended
    exact .inl denoted
  | null =>
    cases value <;> cases ended
    exact .inl denoted
  | _ => cases leaf

/-- What a leaf with listed literals accepts stands for one of them. -/
theorem leaf_literal (known : schema.KnownFormats context.format) {literals : List Literal}
    (own : schema.ownLiterals? = some literals)
    (judged : context.Judges schema value (.accepted answer)) :
    ∃ literal, value.StandsFor context.settings literal ∧ literal.isIn literals = true := by
  have listing : ∀ {allowed : List Literal} {found : Value},
      (if allowed = [] then none else some allowed) = some literals →
      literalReason? allowed found = none →
      ∃ literal, found.literal? = some literal ∧ literal.isIn literals = true := by
    intro allowed found some silent
    split at some
    · cases some
    · next listed =>
      obtain rfl := Option.some.inj some
      exact isIn_of_literalReason? silent listed
  have leaf : schema.isLeaf = true := by
    cases schema <;> first | rfl | cases own
  have ended := leaf_settled leaf known judged 0 (.run 0)
  have denoted : ∃ literal, answer.literal? = some literal ∧ literal.isIn literals = true := by
    cases schema with
    | boolean node rules => exact listing own (checkBoolean_literal (Except.ok.inj ended))
    | integer node rules => exact listing own (checkNumber_literal (Except.ok.inj ended))
    | number node rules => exact listing own (checkNumber_literal (Except.ok.inj ended))
    | string node rules =>
      obtain ⟨verdict, checked, kept⟩ := checkString_textForm known 0 (.run 0)
      obtain rfl := kept answer (Except.ok.inj (checked.symm.trans ended))
      exact listing own (checkString_literal ended)
    | _ => cases own
  obtain ⟨literal, denoted, inside⟩ := denoted
  exact ⟨literal, leaf_standsFor leaf known judged denoted, inside⟩

/-- What an answer keeps: it denotes only what the value stands for, at the top and under each
key, and its keys are distinct when those of the value are. -/
structure Keeps (options : Options) (value answer : Value) : Prop where
  literal : ∀ literal, answer.literal? = some literal → value.StandsFor options literal
  keyed : value.Keyed → answer.Keyed
  field : value.Keyed → ∀ key literal, (answer.field key).literal? = some literal →
    (value.field key).StandsFor options literal

/-- A value keeps what it stands for. -/
theorem Keeps.refl (options : Options) (value : Value) : Keeps options value value :=
  ⟨fun _ => .inl, id, fun _ _ _ => .inl⟩

/-- What is kept twice is kept. -/
theorem Keeps.trans {options : Options} {value middle answer : Value}
    (first : Keeps options value middle) (second : Keeps options middle answer) :
    Keeps options value answer where
  literal literal found := (second.literal literal found).before first.literal
  keyed distinct := second.keyed (first.keyed distinct)
  field distinct key literal found :=
    (second.field (first.keyed distinct) key literal found).before (first.field distinct key)

/-- Tags keep what a value stands for. -/
theorem Keeps.withTags {options : Options} {value answer : Value}
    (keeps : Keeps options value answer) (schemas : List Schema) :
    Keeps options value (answer.withTags schemas) := by
  obtain ⟨literal, keyed, field⟩ := keeps
  constructor
  · simpa using literal
  · simpa using keyed
  · simpa using field

/-- Every answer keeps what it is for, when keys are read as they are. -/
theorem answer_keeps (inward : context.settings.convertFromNetwork = false)
    (sound : context.Sound schema) {value answer : Value}
    (judged : context.Judges schema value (.accepted answer)) :
    Keeps context.settings value answer := by
  refine accepted_induction (motive := fun _ => Keeps context.settings) ?_ sound sound judged
  intro schema value answer sound step
  cases step with
  | leaf leaf judged =>
    have known := sound.here.knownFormats
    rcases leaf_answer leaf known judged with rfl | ⟨bare, _⟩
    · exact .refl _ _
    · -- an answer that is not the value is a scalar, which has no keys
      have keyed : answer.Keyed := by cases answer <;> trivial
      have none : ∀ key, answer.field key = .undefined := by
        cases answer <;> first | exact fun _ => rfl | cases bare
      refine ⟨fun _ => leaf_standsFor leaf known judged, fun _ => keyed, fun _ key _ found => ?_⟩
      rw [none] at found
      cases found
  | items place shape found count judged =>
    refine ⟨fun literal found => ?_, fun _ => trivial, fun _ key literal found => ?_⟩
    · cases Value.tags?_of_literal? found
    · cases Value.isUndefined_of_literal? found
  | @fields node properties additional content fields answers tags place shape object judged =>
    subst object
    have names : (context.shape schema).DistinctNames :=
      (sound.reached (reaches_shape context schema)).here.distinctNames
    rw [shape] at names
    rw [inward, Bool.false_and] at judged
    refine ⟨fun literal found => ?_, judged.distinct names, fun distinct key literal => ?_⟩
    · cases Value.tags?_of_literal? found
    · refine judged.standsFor_lookup distinct ?_
      intro body _ item answer literal judged found
      exact (judged.2.2 answer rfl).literal literal found
  | union shape judged =>
    obtain ⟨choice, _, _, _, keeps⟩ := judged.accepted
    exact keeps answer rfl
  | intersection shape judged =>
    obtain ⟨last, tags, keeps, rfl⟩ := judged.accepted (Keeps.refl _ value)
      (fun component _ item answer keeps judged => keeps.trans (judged.2.2 answer rfl))
    exact keeps.withTags tags
  | @named ref inner verdict shape other judged tagged =>
    obtain ⟨first, rfl, rfl⟩ := accepted_of_map tagged
    exact (judged.2.2 first rfl).withTags [schema]

end Context

end Conform
