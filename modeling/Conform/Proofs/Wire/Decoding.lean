import Conform.Proofs.Discriminator.Marks
import Conform.Proofs.Discriminator.Table
import Conform.Proofs.Wire.Compatibility

/-!
# Decoded values

A value that arrives by wire names is decoded step by step, as the schemas of a panel judge it
in turn. On the way it says all the time what it said at first: a field lies where the tags of
the object say, its value is decoded in the same way, and nothing else is there. The tags show
which object types have read the object, and that is enough for a union to find the key that
decides it, renamed or not.
-/

namespace Conform

open Validator (readKey isTaken forbiddenKeys)

namespace Context

variable (context : Context)

/-- An object type that renamed the wire key has left the tag of a choice with its own. -/
def Shows (choices : List Schema) (wire : String) (tags : Tags) : Prop :=
  ∀ judge ∈ tags, ∀ node properties additional,
    context.shape judge = .object node properties additional →
    ∀ property ∈ properties, property.Renamed → readKey true property = wire →
    ∃ choice ∈ choices, choice ∈ tags

/-- Tags that a panel leaves on an object: they are of schemas that it calls, show what no
schema of it conceals, and tell the candidates of each. -/
structure Marked (panel : Panel) (value : Value) (tags : Tags) : Prop where
  called : ∀ tag ∈ tags, context.Calls panel value tag
  shown : ∀ choices wire, (∀ judge, panel judge → ¬ context.Conceals value choices wire judge) →
    context.Shows choices wire tags
  told : ∀ tag ∈ tags, ∀ levels,
    ∀ candidate ∈ tag.candidatesWithin context.definitions levels, context.Tells tags candidate

/-- The key is the name of a property of the only object type that comes to judge. -/
def Hides (called : Panel) (key : String) : Prop :=
  ∃ judge node properties additional, called judge ∧
    context.shape judge = .object node properties additional ∧
    (∃ property ∈ properties, property.name = key) ∧
    ∀ judge' node' properties' additional', called judge' →
      context.shape judge' = .object node' properties' additional' → judge' = judge

/-- The second value is the first one as far as a panel has decoded it. -/
inductive Decodes : Panel → Value → Value → Prop
  | scalar {panel : Panel} {value : Value} (plain : value.tags? = none) :
    Decodes panel value value
  | array {panel : Panel} {content content' : Identity} {items items' : List Value}
      {tags tags' : Tags} (lengths : items.length = items'.length)
      (each : ∀ (index : Nat) (inside : index < items.length) (inside' : index < items'.length),
        Decodes (context.panelOfItems (context.Calls panel (.array content items tags)))
          items[index] items'[index]) :
      Decodes panel (.array content items tags) (.array content' items' tags')
  | object {panel : Panel} {content content' : Identity} {fields fields' : Fields Value}
      {tags : Tags} (distinct : Fields.Distinct fields')
      (forbidden : ∀ key ∈ forbiddenKeys, key ∈ Fields.keys fields ↔ key ∈ Fields.keys fields')
      (marked : context.Marked panel (.object content fields []) tags)
      (covered : ∀ key, (Fields.lookup key fields').isUndefined = false →
        (∃ inner outer,
          context.Lies (context.Calls panel (.object content fields [])) tags inner outer key) ∨
        (Fields.lookup key fields).isUndefined = false ∧
          context.Hides (context.Calls panel (.object content fields [])) key)
      (each : ∀ inner outer key,
        context.Lies (context.Calls panel (.object content fields [])) tags inner outer key →
        Decodes (context.panelAt (context.Calls panel (.object content fields [])) inner)
          (Fields.lookup outer fields) (Fields.lookup key fields')) :
      Decodes panel (.object content fields []) (.object content' fields' tags)

variable {context} {panel panel' : Panel} {value value' : Value}

/-- The only object type takes every key that it hides. -/
theorem Hides.taken {called : Panel} {schema : Schema} {node : Nat} {key : String}
    {properties : List (Property Schema)} {additional : Additional Schema}
    (hides : context.Hides called key) (member : called schema)
    (shaped : context.shape schema = .object node properties additional) (wire : Bool) :
    isTaken wire properties key = true := by
  obtain ⟨judge, _, _, _, _, shaped', ⟨property, listed, named⟩, only⟩ := hides
  obtain rfl := only _ _ _ _ member shaped
  cases shaped.symm.trans shaped'
  exact Validator.isTaken_of_mem listed (.inr named)

namespace Decodes

/-- What is decoded is there when it was there before. -/
theorem isUndefined_eq (decodes : context.Decodes panel value value') :
    value.isUndefined = value'.isUndefined := by
  cases decodes <;> rfl

/-- What is decoded stands for the same literal. -/
theorem literal?_eq (decodes : context.Decodes panel value value') :
    value.literal? = value'.literal? := by
  cases decodes <;> rfl

/-- A scalar is decoded as it is. -/
theorem eq_of_scalar (decodes : context.Decodes panel value value')
    (plain : value.tags? = none) : value' = value := by
  cases decodes with
  | scalar _ => rfl
  | array => cases plain
  | object => cases plain

/-- What has been decoded as a scalar was that scalar. -/
theorem eq_of_scalar' (decodes : context.Decodes panel value value')
    (plain : value'.tags? = none) : value' = value := by
  cases decodes with
  | scalar _ => rfl
  | array => cases plain
  | object => cases plain

/-- A value without a value is decoded for every panel. -/
theorem missing (none : value.isUndefined = true) (none' : value'.isUndefined = true) :
    context.Decodes panel value value' := by
  rw [Value.eq_undefined none, Value.eq_undefined none']
  exact .scalar rfl

/-- A panel that calls the same schemas and conceals no more has decoded as much. -/
theorem of_panel (decodes : context.Decodes panel value value')
    (same : context.Calls panel' value = context.Calls panel value)
    (less : ∀ choices wire,
      (∀ judge, panel' judge → ¬ context.Conceals value choices wire judge) →
      ∀ judge, panel judge → ¬ context.Conceals value choices wire judge) :
    context.Decodes panel' value value' := by
  cases decodes with
  | scalar plain => exact .scalar plain
  | array lengths each => exact .array lengths (by rw [same]; exact each)
  | object distinct forbidden marked covered each =>
    refine .object distinct forbidden ⟨?_, fun choices wire open' => ?_, marked.told⟩ ?_ ?_
    · rw [same]
      exact marked.called
    · exact marked.shown choices wire (less choices wire open')
    · rw [same]
      exact covered
    · rw [same]
      exact each

/-- One more schema that the panel calls already takes nothing away. -/
theorem add {schema : Schema} (decodes : context.Decodes panel value value')
    (called : context.Calls panel value schema) : context.Decodes (panel.add schema) value value' :=
  decodes.of_panel (calls_add called)
    (fun _ _ unconcealed judge member => unconcealed judge (.inl member))

end Decodes

/-- A value that nothing has judged is decoded as far as it goes. -/
theorem decodes_self (bare : value.Throughout Value.Bare)
    (compatibly : context.CompatibleThroughout panel value) :
    context.Decodes panel value value := by
  induction value using Value.contents_induction generalizing panel with
  | step value ih =>
  cases value with
  | array content items tags =>
    refine .array rfl (fun index inside _ => ?_)
    have member := List.getElem_mem inside
    exact ih _ member (bare.item member) (compatibly.part (.item member)).1
  | object content fields tags =>
    obtain rfl : tags = [] := bare.here.untagged
    have compatible := compatibly.compatible rfl
    refine .object bare.here.keyed (fun _ _ => Iff.rfl) ⟨?_, ?_, ?_⟩ (fun key there => ?_)
      (fun inner outer key lies => ?_)
    · exact fun _ member => by cases member
    · exact fun _ _ _ _ member => by cases member
    · exact fun _ member => by cases member
    · by_cases free : ∀ judge node properties additional,
          context.Calls panel (.object content fields []) judge →
          context.shape judge = .object node properties additional →
          isTaken true properties key = false
      · exact .inl ⟨_, _, .other free⟩
      · simp only [not_forall, Bool.not_eq_false] at free
        obtain ⟨judge, node, properties, additional, called, shaped, taken⟩ := free
        obtain ⟨property, listed, takes⟩ := Validator.exists_of_isTaken taken
        by_cases read : readKey true property = key
        · have lies : context.Lies (context.Calls panel (.object content fields [])) [] _ _
              (readKey true property) := .declared called shaped listed
          rw [read] at lies
          exact .inl ⟨_, _, lies⟩
        · obtain rfl := takes.resolve_left read
          -- another object type would ask that nothing is under the name of the property
          refine .inr ⟨there, judge, node, properties, additional, called, shaped,
            ⟨property, listed, rfl⟩, ?_⟩
          intro judge' node' properties' additional' called' shaped'
          by_contra apart
          cases (compatible.free _ _ _ _ _ _ _ _ called called' shaped shaped' apart property listed
            read).symm.trans there
    · have same : key = outer := by cases lies <;> rfl
      subst same
      cases there : (Fields.lookup key fields).isUndefined with
      | true => exact .missing there there
      | false =>
        have member := Fields.mem_of_lookup there
        exact ih _ (List.mem_map_of_mem (f := Prod.snd) member) (bare.field member)
          (compatibly.part (.field lies)).1
  | _ => exact .scalar rfl

/-! ## Finding the key of a union -/

section

variable {content content' : Identity} {fields fields' : Fields Value} {tags : Tags} {key : String}

/-- Where no object type renames a key, the field under it stays. -/
theorem Decodes.literal?_of_kept
    (decodes : context.Decodes panel (.object content fields []) (.object content' fields' tags))
    (kept : ∀ judge node properties additional,
      context.Calls panel (.object content fields []) judge →
      context.shape judge = .object node properties additional → ∀ property ∈ properties,
      readKey true property = key ∨ property.name = key →
        readKey true property = key ∧ readKey (!tags.has judge) property = key) :
    (Fields.lookup key fields).literal? = (Fields.lookup key fields').literal? := by
  cases decodes with
  | scalar plain => cases plain
  | object distinct forbidden marked covered each =>
  by_cases free : ∀ judge node properties additional,
      context.Calls panel (.object content fields []) judge →
      context.shape judge = .object node properties additional →
      isTaken true properties key = false
  · exact (each _ _ _ (.other free)).literal?_eq
  · simp only [not_forall, Bool.not_eq_false] at free
    obtain ⟨judge, node, properties, additional, called, shaped, taken⟩ := free
    obtain ⟨property, listed, takes⟩ := Validator.exists_of_isTaken taken
    obtain ⟨outer, now⟩ := kept _ _ _ _ called shaped property listed takes
    have lies := each _ _ _ (.declared called shaped listed)
    rw [outer, now] at lies
    exact lies.literal?_eq

variable {choices : List Schema} {discriminator : Discriminator}

/-- Where the key of a union is its wire name, the field under it stays. -/
theorem Decodes.literal?_of_same
    (decodes : context.Decodes panel (.object content fields []) (.object content' fields' tags))
    (findable : context.KeyFindable (context.Calls panel (.object content fields []))
      (.object content fields []) choices discriminator)
    (same : discriminator.wire = discriminator.key) :
    (Fields.lookup discriminator.key fields).literal? =
      (Fields.lookup discriminator.key fields').literal? := by
  refine decodes.literal?_of_kept ?_
  intro judge node properties additional called shaped property listed takes
  refine Validator.reads_of_plain (fun renames => ?_) takes _
  obtain ⟨apart, both⟩ := findable.kept _ _ _ _ called shaped property listed renames
  rw [same] at apart both
  exact takes.elim (fun read => apart (both.mpr read)) apart

/-- While no option has left its tag, the field under the wire name stays. -/
theorem Decodes.literal?_of_unmarked
    (decodes : context.Decodes panel (.object content fields []) (.object content' fields' tags))
    (findable : context.KeyFindable (context.Calls panel (.object content fields []))
      (.object content fields []) choices discriminator)
    (unconcealed : ∀ judge, panel judge →
      ¬ context.Conceals (.object content fields []) choices discriminator.wire judge)
    (unmarked : ∀ choice ∈ choices, choice ∉ tags) :
    (Fields.lookup discriminator.wire fields).literal? =
      (Fields.lookup discriminator.wire fields').literal? := by
  refine decodes.literal?_of_kept ?_
  cases decodes with
  | scalar plain => cases plain
  | object distinct forbidden marked covered each =>
  intro judge node properties additional called shaped property listed takes
  by_cases renames : property.Renamed
  · have apart := (findable.kept _ _ _ _ called shaped property listed renames).1
    have read := takes.resolve_right apart
    have unread : tags.has judge = false := by
      refine Bool.eq_false_iff.mpr (fun tagged => ?_)
      obtain ⟨choice, member, left⟩ := marked.shown choices discriminator.wire unconcealed judge
        ((Tags.has_eq_true_iff _ _).mp tagged) _ _ _ shaped property listed renames read
      exact unmarked choice member left
    rw [unread]
    exact ⟨read, read⟩
  · exact Validator.reads_of_plain renames takes _

variable (context) in
/-- An object type among the tags has read the wire name of the key. -/
def HasRead (discriminator : Discriminator) (tags : Tags) : Prop :=
  ∃ judge ∈ tags, ∃ node properties additional,
    context.shape judge = .object node properties additional ∧
      ∃ property ∈ properties, property.name = discriminator.key ∧
        readKey true property = discriminator.wire

/-- Once an object type has read the wire name of the key, its field is under the key. -/
theorem Decodes.literal?_of_hasRead
    (decodes : context.Decodes panel (.object content fields []) (.object content' fields' tags))
    (read : context.HasRead discriminator tags) :
    (Fields.lookup discriminator.wire fields).literal? =
      (Fields.lookup discriminator.key fields').literal? := by
  obtain ⟨judge, tagged, _, properties, additional, shaped, property, listed, named, read⟩ := read
  cases decodes with
  | scalar plain => cases plain
  | object distinct forbidden marked covered each =>
    have lies := each _ _ _ (.declared (marked.called judge tagged) shaped listed)
    rw [(Tags.has_eq_true_iff _ _).mpr tagged, Bool.not_true, Validator.readKey_false, named,
      read] at lies
    exact lies.literal?_eq

/-- Until an object type has read the wire name of the key, nothing is under the key. -/
theorem Decodes.absent_of_unread
    (decodes : context.Decodes panel (.object content fields []) (.object content' fields' tags))
    (findable : context.KeyFindable (context.Calls panel (.object content fields []))
      (.object content fields []) choices discriminator)
    (blank : (Fields.lookup discriminator.key fields).isUndefined = true)
    (unread : ¬ context.HasRead discriminator tags) :
    (Fields.lookup discriminator.key fields').isUndefined = true := by
  cases decodes with
  | scalar plain => cases plain
  | object distinct forbidden marked covered each =>
  by_contra there
  rw [Bool.not_eq_true] at there
  obtain ⟨inner, outer, lies⟩ := (covered _ there).resolve_right fun hidden => by
    cases hidden.1.symm.trans blank
  have away : outer ≠ discriminator.key := by
    rintro rfl
    cases ((each _ _ _ lies).isUndefined_eq.trans there).symm.trans blank
  rcases lies.how with
    ⟨judge, node, properties, additional, called, shaped, property, listed, named, read, now⟩ |
      ⟨_, same, _⟩
  · cases tagged : tags.has judge with
    | false =>
      rw [tagged] at now
      exact away (read.symm.trans now)
    | true =>
      rw [tagged, Bool.not_true, Validator.readKey_false] at now
      have renames : property.Renamed := fun same => away (read.symm.trans (same.trans now))
      have kept := findable.kept _ _ _ _ called shaped property listed renames
      exact unread ⟨judge, (Tags.has_eq_true_iff _ _).mp tagged, _, _, _, shaped, property,
        listed, now, kept.2.mp now⟩
  · exact away same

/-- An option that the key decides leaves its tag only with that of an object type that has read
the wire name. -/
theorem Marked.hasRead (marked : context.Marked panel value tags)
    (found : Discriminator.find? context.definitions choices = some discriminator)
    {choice : Schema} (member : choice ∈ choices) (left : choice ∈ tags) :
    choice ∈ discriminator.aside choices ∨ context.HasRead discriminator tags := by
  rcases Discriminator.find?_candidate found member with aside | ⟨candidate, own, key, wire⟩
  · exact .inl aside
  · obtain ⟨judge, tagged, node, properties, additional, shaped, property, listed, named, same⟩ :=
      marked.told choice left _ candidate own
    refine .inr ⟨judge, tagged, node, properties, additional, shaped, property, listed,
      named.trans key, ?_⟩
    rw [Validator.readKey_true, same, wire, named, key, Discriminator.wire]

/-- What is under the key of a union selects the same as what was under its wire name. -/
theorem Decodes.selection?_of_findable (wired : context.settings.convertFromNetwork = true)
    (found : Discriminator.find? context.definitions choices = some discriminator)
    (findable : context.KeyFindable (context.Calls panel value) value choices discriminator)
    (unconcealed : discriminator.wire ≠ discriminator.key → ∀ judge, panel judge →
      ¬ context.Conceals value choices discriminator.wire judge)
    (decodes : context.Decodes panel value value') :
    context.selection? discriminator choices value' =
      context.selection? discriminator choices value := by
  cases decodes with
  | scalar plain => rfl
  | array lengths each => rfl
  | @object _ content content' fields fields' tags distinct forbidden marked covered each =>
  have whole : context.Decodes panel (.object content fields []) (.object content' fields' tags) :=
    .object distinct forbidden marked covered each
  have start : choices.any (Tags.has []) = false := by simp [Tags.has]
  simp only [selection?, decisive, Validator.dispatchKey_of_network wired, start,
    Bool.false_eq_true, if_false]
  by_cases same : discriminator.wire = discriminator.key
  · rw [same, ite_self]
    exact Discriminator.chosen?_congr (whole.literal?_of_same findable same).symm _ choices
  cases mark : choices.any tags.has with
  | false =>
    rw [if_neg Bool.false_ne_true]
    refine Discriminator.chosen?_congr
      (whole.literal?_of_unmarked findable (unconcealed same) ?_).symm _ choices
    intro choice member left
    refine Bool.eq_false_iff.mp mark (List.any_eq_true.mpr ⟨choice, member, ?_⟩)
    exact (Tags.has_eq_true_iff _ _).mpr left
  | true =>
    rw [if_pos rfl]
    by_cases read : context.HasRead discriminator tags
    · exact Discriminator.chosen?_congr (whole.literal?_of_hasRead read).symm _ choices
    · -- the tag is of an option left aside: nothing is under the key, and none is selected
      obtain ⟨choice, member, left⟩ := List.any_eq_true.mp mark
      have left := (Tags.has_eq_true_iff _ _).mp left
      have aside := (marked.hasRead found member left).resolve_right read
      obtain ⟨selects, blank⟩ := findable.aside same choice aside (marked.called choice left)
      simp only [selection?, decisive, Validator.dispatchKey_of_network wired, start,
        Bool.false_eq_true, if_false] at selects
      rw [selects, Value.eq_undefined (whole.absent_of_unread findable blank read)]
      rfl

end

variable {node : Nat} {choices : List Schema}

/-- A union finds its key in what a panel has decoded. -/
theorem Decodes.selection?_eq (wired : context.settings.convertFromNetwork = true)
    (callee : context.CalledCompatibly panel value (.union node choices))
    (decodes : context.Decodes panel value value') {discriminator : Discriminator}
    (found : Discriminator.find? context.definitions choices = some discriminator) :
    context.selection? discriminator choices value' =
      context.selection? discriminator choices value := by
  cases decodes with
  | scalar plain => rfl
  | array lengths each => rfl
  | object distinct forbidden marked covered each =>
    exact Decodes.selection?_of_findable wired found
      ((callee.compatibly.compatible rfl).findable _ _ _ callee.called found)
      (callee.unconcealed rfl _ _ _ Relation.ReflTransGen.refl found)
      (.object distinct forbidden marked covered each)

/-- A union hands a value on to the option that it selects, or else it tries all options that it
hands the value on to, and it does the same with every value that selects alike. -/
theorem union_delegates (value : Value) (node : Nat) (choices : List Schema) :
    (∃ choice, context.delegates value (.union node choices) = [choice] ∧
        ∀ {judges : Schema → Value → Verdict → Prop} {value' : Value} {verdict : Verdict},
          (∀ discriminator, Discriminator.find? context.definitions choices = some discriminator →
            context.selection? discriminator choices value' =
              context.selection? discriminator choices value) →
          context.UnionStep judges choices value' verdict → judges choice value' verdict) ∨
      ∀ {judges : Schema → Value → Verdict → Prop} {value' : Value} {verdict : Verdict},
        (∀ discriminator, Discriminator.find? context.definitions choices = some discriminator →
          context.selection? discriminator choices value' =
            context.selection? discriminator choices value) →
        context.UnionStep judges choices value' verdict →
        (context.delegates value (.union node choices) = [] ∧
            ∃ violations, verdict = .rejected violations) ∨
          ∃ verdicts, List.Forall₂ (fun choice verdict => judges choice value' verdict)
              (context.delegates value (.union node choices)) verdicts ∧
            context.tallied (context.delegates value (.union node choices)) value' verdicts =
              verdict := by
  simp only [delegates]
  cases found : Discriminator.find? context.definitions choices with
  | none => exact .inr (fun _ step => .inr (step.undecided found))
  | some discriminator =>
    simp only
    cases selected : context.selection? discriminator choices value with
    | some choice =>
      refine .inl ⟨choice, rfl, fun selects step => ?_⟩
      have same := (selects discriminator rfl).trans selected
      rcases step.by_selection found with ⟨choice', selected', judged⟩ | ⟨none, _⟩
      · cases selected'.symm.trans same
        exact judged
      · cases none.symm.trans same
    | none =>
      refine .inr (fun selects step => ?_)
      have same := (selects discriminator rfl).trans selected
      rcases step.by_selection found with ⟨choice', selected', _⟩ | ⟨_, how⟩
      · cases selected'.symm.trans same
      · rcases how with ⟨complete, refused⟩ | tried
        · exact .inl ⟨by rw [Discriminator.aside, complete]; rfl, refused⟩
        · exact .inr tried

/-- A union accepts what a panel has decoded by a schema that it hands the value on to. -/
theorem UnionStep.accepted_delegate {judges : Schema → Value → Verdict → Prop} {answer : Value}
    (selects : ∀ discriminator,
      Discriminator.find? context.definitions choices = some discriminator →
      context.selection? discriminator choices value' =
        context.selection? discriminator choices value)
    (step : context.UnionStep judges choices value' (.accepted answer)) :
    ∃ choice ∈ context.delegates value (.union node choices),
      judges choice value' (.accepted answer) := by
  rcases union_delegates value node choices with ⟨choice, only, judged⟩ | tried
  · exact ⟨choice, only ▸ .head _, judged selects step⟩
  · rcases tried selects step with ⟨_, _, refused⟩ | ⟨verdicts, judged, amounts⟩
    · cases refused
    · exact mem_of_tallied judged amounts

end Context

end Conform
