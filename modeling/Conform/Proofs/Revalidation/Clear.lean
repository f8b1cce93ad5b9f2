import Conform.Proofs.Revalidation.Ambiguity

/-!
# Schemas that are never ambiguous

Several options match only where a union tries its options. So a schema all of whose unions are
decided by discriminators, with no option left aside, refuses nothing for that reason.
-/

namespace Conform

namespace Reason

/-- The reason is that several options match. -/
def isMany : Reason → Bool
  | .manyPreferred _ => true
  | .manyOptions _ => true
  | _ => false

/-- No reason, or one that is not that several options match. -/
def Single (reason? : Option Reason) : Prop :=
  ∀ reason ∈ reason?, reason.isMany = false

/-- Without a reason there is no ambiguity. -/
theorem single_none : Single none := by
  rintro _ ⟨⟩

/-- Any other reason is no ambiguity. -/
theorem single_some {reason : Reason} (single : reason.isMany = false) : Single (some reason) := by
  rintro _ ⟨⟩
  exact single

/-- Of two checks the first reason counts, and none is an ambiguity when neither is. -/
theorem single_orElse {first : Option Reason} {second : Unit → Option Reason}
    (single : Single first) (single' : Single (second ())) : Single (first.orElse second) := by
  cases first with
  | none => exact single'
  | some reason => exact single

end Reason

open Violation (AnyAmbiguous)

namespace Violation

/-- A single violation is ambiguous when its reason is. -/
theorem ambiguous_single_iff {path : List String} {reason : Reason} :
    (Violation.single path reason).Ambiguous ↔ reason.isMany = true := by
  constructor
  · intro ambiguous
    cases ambiguous <;> rfl
  · intro many
    cases reason with
    | manyPreferred options => exact .preferred path options
    | manyOptions options => exact .options path options
    | _ => cases many

/-- A violation that gathers others is ambiguous when one of them is. -/
theorem ambiguous_group_iff {path : List String} {reason : Reason} {causes : List Violation} :
    (Violation.group path reason causes).Ambiguous ↔ AnyAmbiguous causes := by
  constructor
  · intro ambiguous
    cases ambiguous with
    | behind _ _ member ambiguous => exact ⟨_, member, ambiguous⟩
  · rintro ⟨cause, member, ambiguous⟩
    exact .behind path reason member ambiguous

/-- A violation further down is as ambiguous as before. -/
theorem ambiguous_under_iff {segment : String} {violation : Violation} :
    (violation.under segment).Ambiguous ↔ violation.Ambiguous := by
  cases violation with
  | single path reason => rw [Violation.under, ambiguous_single_iff, ambiguous_single_iff]
  | group path reason causes => rw [Violation.under, ambiguous_group_iff, ambiguous_group_iff]

end Violation

/-- The verdict does not say that several options match. -/
def Verdict.Clear (verdict : Verdict) : Prop :=
  ∀ violations, verdict = .rejected violations → ¬ AnyAmbiguous violations

namespace Verdict

/-- What accepts is clear. -/
theorem clear_accepted (answer : Value) : (Verdict.accepted answer).Clear :=
  nofun

/-- A refusal for any other reason is clear. -/
theorem clear_single {path : List String} {reason : Reason} (single : reason.isMany = false) :
    (Verdict.rejected [.single path reason]).Clear := by
  rintro _ ⟨⟩ ⟨violation, member, ambiguous⟩
  rw [List.mem_singleton.mp member, Violation.ambiguous_single_iff, single] at ambiguous
  cases ambiguous

/-- A group of clear violations is clear. -/
theorem Clear.group {causes : List Violation} (clear : (Verdict.rejected causes).Clear)
    (path : List String) (reason : Reason) :
    (Verdict.rejected [.group path reason causes]).Clear := by
  rintro _ ⟨⟩ ⟨violation, member, ambiguous⟩
  rw [List.mem_singleton.mp member, Violation.ambiguous_group_iff] at ambiguous
  exact clear causes rfl ambiguous

/-- Clear violations stay clear further down. -/
theorem Clear.under {causes : List Violation} (clear : (Verdict.rejected causes).Clear)
    (segment : String) : (Verdict.rejected (causes.map (Violation.under segment))).Clear := by
  rintro _ ⟨⟩ ⟨violation, member, ambiguous⟩
  obtain ⟨cause, inside, rfl⟩ := List.mem_map.mp member
  exact clear causes rfl ⟨cause, inside, Violation.ambiguous_under_iff.mp ambiguous⟩

/-- A verdict by a reason that is no ambiguity is clear. -/
theorem clear_unless {reason? : Option Reason} (single : Reason.Single reason?)
    (value : Value) : (Verdict.unless reason? value).Clear := by
  cases reason? with
  | none => exact clear_accepted value
  | some reason => exact clear_single (single reason rfl)

end Verdict

/-! ## Leaves -/

/-- Literals that are not allowed are no ambiguity. -/
theorem single_literalReason? (allowed : List Literal) (value : Value) :
    Reason.Single (literalReason? allowed value) := by
  unfold literalReason?
  split
  · exact Reason.single_none
  · split
    · split
      · exact Reason.single_none
      · exact Reason.single_some rfl
    · exact Reason.single_some rfl

/-- Bounds that are not kept are no ambiguity. -/
theorem single_boundReason? (rules : NumberRules) (number : Binary64) :
    Reason.Single (boundReason? rules number) := by
  unfold boundReason?
  refine Reason.single_orElse ?_ (Reason.single_orElse ?_ (Reason.single_orElse ?_ ?_)) <;>
  · simp only
    split
    · split
      · exact Reason.single_some rfl
      · exact Reason.single_none
    · exact Reason.single_none

/-- Texts that are not admitted are no ambiguity. -/
theorem single_textReason? (rules : StringRules) (text : String) :
    Reason.Single (textReason? rules text) := by
  unfold textReason?
  refine Reason.single_orElse ?_ (Reason.single_orElse ?_ (single_literalReason? _ _)) <;>
  · split
    · split
      · exact Reason.single_some rfl
      · exact Reason.single_none
    · exact Reason.single_none

/-- Patterns that do not match are no ambiguity. -/
theorem single_patternReason? (rules : StringRules) (text : String) :
    Reason.Single (patternReason? rules text) := by
  unfold patternReason?
  split
  · split
    · exact Reason.single_none
    · exact Reason.single_some rfl
  · exact Reason.single_none

/-- Counts that are out of range are no ambiguity. -/
theorem single_countReason? (least most : Option Nat) (count : Nat) :
    Reason.Single (Validator.countReason? least most count) := by
  unfold Validator.countReason?
  refine Reason.single_orElse ?_ ?_ <;>
  · split
    · split
      · exact Reason.single_some rfl
      · exact Reason.single_none
    · exact Reason.single_none

/-- Boolean checks are clear. -/
theorem clear_checkBoolean (rules : BooleanRules) (options : Options) (value : Value) :
    (checkBoolean rules options value).Clear := by
  unfold checkBoolean
  split
  · exact Verdict.clear_unless (single_literalReason? _ _) _
  · exact Verdict.clear_single rfl

/-- Number checks are clear. -/
theorem clear_checkNumber (whole : Bool) (rules : NumberRules) (options : Options)
    (value : Value) : (checkNumber whole rules options value).Clear := by
  unfold checkNumber
  split
  · exact Verdict.clear_single rfl
  · split
    · exact Verdict.clear_single rfl
    · split
      · next reason found => exact Verdict.clear_single (single_boundReason? _ _ reason found)
      · exact Verdict.clear_unless (single_literalReason? _ _) _

/-- Strings are refused for one reason, when formats are. -/
theorem clear_checkString {format : String → Option Validator} {check : Validator → Attempt}
    {rules : StringRules} {value : Value} {verdict : Verdict}
    (formats : ∀ name inner result, rules.format = some name → format name = some inner →
      check inner = .ok result → result.Clear)
    (ended : Validator.checkString format check rules value = .ok verdict) : verdict.Clear := by
  cases value with
  | string text =>
    simp only [Validator.checkString] at ended
    split at ended
    · next reason found =>
      obtain rfl := Except.ok.inj ended
      exact Verdict.clear_single (single_textReason? rules text reason found)
    · split at ended
      · obtain rfl := Except.ok.inj ended
        exact Verdict.clear_unless (single_patternReason? rules text) _
      · next name named =>
        split at ended
        · obtain rfl := Except.ok.inj ended
          exact Verdict.clear_single rfl
        · next inner found =>
          split at ended
          · cases ended
          · next violations refused =>
            obtain rfl := Except.ok.inj ended
            exact (formats name inner _ named found refused).group [] _
          · obtain rfl := Except.ok.inj ended
            exact Verdict.clear_unless (single_patternReason? rules _) _
  | _ =>
    obtain rfl := Except.ok.inj ended
    exact Verdict.clear_single rfl

namespace Context

variable {context : Context} {schema : Schema} {value : Value} {verdict : Verdict}

/-- A leaf refuses for one reason. -/
theorem leaf_clear (leaf : schema.isLeaf = true) (known : schema.KnownFormats context.format)
    (judged : context.Judges schema value verdict) : verdict.Clear := by
  have ended := leaf_settled leaf known judged 0 (.run 0)
  cases schema with
  | string node rules =>
    refine clear_checkString ?_ ended
    intro name inner result named found checked
    obtain ⟨inner', listed, found'⟩ := known name named
    cases found.symm.trans found'
    obtain ⟨form, accepts, rfl⟩ := Formats.builtin_textForm listed
    obtain rfl := Except.ok.inj checked
    cases value with
    | string text =>
      cases accepted : accepts text with
      | true =>
        simp only [accepted, if_true]
        exact Verdict.clear_accepted _
      | false =>
        simp only [accepted, Bool.false_eq_true, if_false]
        exact Verdict.clear_single rfl
    | _ => exact Verdict.clear_single rfl
  | void =>
    cases value <;> obtain rfl := Except.ok.inj ended
    all_goals first | exact Verdict.clear_accepted _ | exact Verdict.clear_single rfl
  | null =>
    cases value <;> obtain rfl := Except.ok.inj ended
    all_goals first | exact Verdict.clear_accepted _ | exact Verdict.clear_single rfl
  | unknown =>
    obtain rfl := Except.ok.inj ended
    exact Verdict.clear_accepted _
  | boolean node rules =>
    obtain rfl := Except.ok.inj ended
    exact clear_checkBoolean _ _ _
  | integer node rules =>
    obtain rfl := Except.ok.inj ended
    exact clear_checkNumber _ _ _ _
  | number node rules =>
    obtain rfl := Except.ok.inj ended
    exact clear_checkNumber _ _ _ _
  | _ => cases leaf

end Context

/-! ## Whole schemas -/

namespace Validator

variable {judges : Schema → Value → Verdict → Prop} {violations : List Violation}
  (parts : ∀ part item verdict, judges part item verdict → verdict.Clear)

include parts

/-- Fields are refused clearly when the bodies refuse clearly. -/
theorem FieldsRefused.clear {wire drop : Bool} {properties : List (Property Schema)}
    {additional : Additional Schema} {fields : Fields Value}
    (refused : FieldsRefused judges wire drop properties additional fields violations) :
    (Verdict.rejected violations).Clear := by
  cases refused with
  | forbidden member forbidden => exact Verdict.clear_single rfl
  | missing member absent required => exact Verdict.clear_single rfl
  | property member present judged => exact (parts _ _ _ judged).under _
  | others refused =>
    cases refused with
    | unexpected closed kept member => exact Verdict.clear_single rfl
    | judged typed member judged => exact (parts _ _ _ judged).under _

/-- A chain is clear when its components are. -/
theorem Chain.clear {components : List Schema} {value : Value} {tags : Tags} {verdict : Verdict}
    (chain : Chain judges components value tags verdict) : verdict.Clear := by
  induction chain with
  | done value tags => exact Verdict.clear_accepted _
  | next judged further ih => exact ih
  | refused number judged => exact (parts _ _ _ judged).group [] _

end Validator

namespace Schema

/-- A union is decided by a discriminator that leaves no option aside. -/
def Decisive (definitions : Definitions) : Schema → Prop
  | .union _ choices => ∃ discriminator,
      Discriminator.find? definitions choices = some discriminator ∧ discriminator.rest = []
  | _ => True

end Schema

namespace Context

variable {context : Context} {schema : Schema} {value : Value} {verdict : Verdict}

/-- A union that is decided by a discriminator never finds that several options match. -/
theorem UnionStep.clear {judges : Schema → Value → Verdict → Prop} {node : Nat}
    {choices : List Schema} (decisive : (Schema.union node choices).Decisive context.definitions)
    (parts : ∀ part item verdict, judges part item verdict → verdict.Clear)
    (step : context.UnionStep judges choices value verdict) : verdict.Clear := by
  obtain ⟨discriminator, found, complete⟩ := decisive
  cases step with
  | selected decided object chosen judged => exact parts _ _ _ judged
  | unknown decided complete object unchosen => exact Verdict.clear_single rfl
  | scalar decided complete other => exact Verdict.clear_single rfl
  | aside decided unchosen judged amounts =>
    cases decided.symm.trans found
    rw [Discriminator.aside, complete] at judged amounts
    cases judged
    subst amounts
    have none : (Verdict.rejected []).Clear := by
      rintro _ ⟨⟩ ⟨_, member, _⟩
      cases member
    exact none.group [] _
  | trial undecided => cases undecided.symm.trans found

/-- A schema whose unions are all decided by discriminators never finds that several options
match. -/
theorem judged_clear (sound : context.Sound schema)
    (decisive : schema.Throughout context.definitions (Schema.Decisive context.definitions))
    (judged : context.Judges schema value verdict) : verdict.Clear := by
  have everywhere : schema.Throughout context.definitions (fun node =>
      node.WellFormed context.format ∧ node.Decisive context.definitions) :=
    fun node reached => ⟨sound node reached, decisive node reached⟩
  refine judged_induction (motive := fun _ _ verdict => verdict.Clear) ?_ sound everywhere judged
  clear sound decisive judged everywhere
  intro schema value verdict everywhere step
  obtain ⟨formed, decisive⟩ := everywhere.here
  have parts : ∀ part item verdict, (part.Throughout context.definitions (fun node =>
      node.WellFormed context.format ∧ node.Decisive context.definitions) ∧
      context.Judges part item verdict ∧ verdict.Clear) → verdict.Clear :=
    fun _ _ _ judged => judged.2.2
  cases step with
  | leaf leaf judged => exact leaf_clear leaf formed.knownFormats judged
  | notItems shape none => exact Verdict.clear_single rfl
  | miscounted shape found count =>
    exact Verdict.clear_single (single_countReason? _ _ _ _ count)
  | items place shape found count judged => exact Verdict.clear_accepted _
  | itemRefused index shape found count there judged => exact judged.2.2.under _
  | notObject shape other => exact Verdict.clear_single rfl
  | fields place shape object judged => exact Verdict.clear_accepted _
  | fieldRefused shape object judged => exact judged.clear parts
  | union shape judged =>
    subst shape
    exact judged.clear decisive parts
  | intersection shape judged => exact judged.clear parts
  | @named ref inner _ shape other judged tagged =>
    subst tagged
    cases inner with
    | accepted answer => exact Verdict.clear_accepted _
    | rejected violations => exact judged.2.2

end Context

end Conform
