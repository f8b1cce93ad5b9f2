import Conform.Proofs.Attempt.Determined
import Conform.Proofs.Attempt.Step
import Conform.Proofs.Discriminator.Table

/-!
# Steps agree

Two ways of judging agree when they accept related values alike, with related answers, or
refuse both. What a refusal says may differ, as it does when properties are checked in
another order. A step from judgements that agree agrees, so that it is enough to know of
both ways that they go step by step.

Which values are related is a parameter. A relation will do when it keeps what steps look
at: kinds, tags, the literals that scalars denote, equality of data, items and fields. Values
that differ in identities only are related in this way.
-/

namespace Conform

/-- Related answers, or a refusal in both. -/
inductive Verdict.Related (related : Value → Value → Prop) : Verdict → Verdict → Prop
  | accepted {answer answer' : Value} (same : related answer answer') :
    Related related (.accepted answer) (.accepted answer')
  | rejected (violations violations' : List Violation) :
    Related related (.rejected violations) (.rejected violations')

/-- A relation of values that keeps what validation looks at. -/
structure Value.Congruence (related : Value → Value → Prop) : Prop where
  symm : ∀ {value value'}, related value value' → related value' value
  kind_eq : ∀ {value value'}, related value value' → value.kind = value'.kind
  tags_eq : ∀ {value value'}, related value value' → value.tags = value'.tags
  withTags : ∀ {value value'}, related value value' → ∀ schemas,
    related (value.withTags schemas) (value'.withTags schemas)
  eq_congr : ∀ {value value' other other'}, related value value' → related other other' →
    value.eq other = value'.eq other'
  literal : ∀ {value value'}, related value value' →
    Option.Rel (fun literal other => literal.same other = true) value.literal? value'.literal?
  items : ∀ {content content' items items' tags tags'},
    related (.array content items tags) (.array content' items' tags') →
      List.Forall₂ related items items'
  array : ∀ {items items'}, List.Forall₂ related items items' → ∀ content content' tags,
    related (.array content items tags) (.array content' items' tags)
  lookup : ∀ {content content' tags tags'} {fields fields' : Fields Value},
    related (.object content fields tags) (.object content' fields' tags') →
      ∀ key : String, related (fields.lookup key) (fields'.lookup key)
  field : ∀ {content content' tags tags' key item} {fields fields' : Fields Value},
    related (.object content fields tags) (.object content' fields' tags') →
      (key, item) ∈ fields → ∃ item', (key, item') ∈ fields' ∧ related item item'

/-- Both ways of judging accept related values alike, or refuse them. -/
def Concord {α : Type} (related : Value → Value → Prop)
    (judges judges' : α → Value → Verdict → Prop) : Prop :=
  ∀ part item item' verdict verdict', related item item' → judges part item verdict →
    judges' part item' verdict' → verdict.Related related verdict'

variable {related : Value → Value → Prop}

namespace Verdict.Related

variable {verdict verdict' : Verdict}

/-- Verdicts are related in both directions. -/
theorem symm (congruence : Value.Congruence related) (same : verdict.Related related verdict') :
    verdict'.Related related verdict := by
  cases same with
  | accepted same => exact .accepted (congruence.symm same)
  | rejected => exact .rejected _ _

/-- The same further tags keep verdicts related. -/
theorem map (congruence : Value.Congruence related) (same : verdict.Related related verdict')
    (schemas : List Schema) :
    (verdict.map (fun answer => answer.withTags schemas)).Related related
      (verdict'.map (fun answer => answer.withTags schemas)) := by
  cases same with
  | accepted same => exact .accepted (congruence.withTags same schemas)
  | rejected => exact .rejected _ _

end Verdict.Related

namespace Value.Congruence

variable {value value' : Value}

/-- Related values are both missing or both there. -/
theorem isUndefined_eq (congruence : Value.Congruence related) (same : related value value') :
    value.isUndefined = value'.isUndefined := by
  have kinds := congruence.kind_eq same
  cases value <;> cases value' <;> first | rfl | cases kinds

/-- A discriminator chooses alike by related values. -/
theorem chosen?_eq {α : Type} (congruence : Value.Congruence related)
    (same : related value value') (discriminator : Discriminator) (options : List α) :
    discriminator.chosen? options value = discriminator.chosen? options value' := by
  have denoted := congruence.literal same
  unfold Discriminator.chosen?
  revert denoted
  cases value.literal? <;> cases value'.literal? <;> rintro (_ | _)
  · rfl
  · next literal => simp only [Option.bind_some, Discriminator.variantOf?_eq_owner?,
      Discriminator.owner?_congr _ literal]

/-- An array check looks at related items, if at any. -/
theorem itemsOf?_rel (congruence : Value.Congruence related) (options : Options)
    (same : related value value') :
    Option.Rel (List.Forall₂ related) (Validator.itemsOf? options value)
      (Validator.itemsOf? options value') := by
  have kinds := congruence.kind_eq same
  cases value <;> cases value' <;> cases kinds <;> simp only [Validator.itemsOf?] <;>
    first
    | exact .none
    | exact .some (congruence.items same)
    | split
      · exact .some (.cons same .nil)
      · exact .none

end Value.Congruence

namespace Concord

variable {α : Type} {judges judges' : α → Value → Verdict → Prop}

/-- Judges that are in concord are so in both directions. -/
theorem symm (congruence : Value.Congruence related) (concord : Concord related judges judges') :
    Concord related judges' judges :=
  fun part item item' verdict verdict' same judged judged' =>
    (concord part item' item verdict' verdict (congruence.symm same) judged' judged).symm congruence

/-- What one way accepts the other does not refuse. -/
theorem not_refused (concord : Concord related judges judges') {part : α}
    {item item' answer : Value} {violations : List Violation} (same : related item item')
    (accepted : judges part item (.accepted answer)) :
    ¬ judges' part item' (.rejected violations) :=
  fun refused => nomatch concord part item item' _ _ same accepted refused

/-- What both ways accept has related answers. -/
theorem answers (concord : Concord related judges judges') {part : α}
    {item item' answer answer' : Value} (same : related item item')
    (accepted : judges part item (.accepted answer))
    (accepted' : judges' part item' (.accepted answer')) : related answer answer' := by
  cases concord part item item' _ _ same accepted accepted' with
  | accepted same => exact same

end Concord

namespace Validator

/-! ## Objects -/

section

variable {α : Type} {judges judges' : α → Value → Verdict → Prop} {wire drop : Bool}
  {properties : List (Property α)} {additional : Additional α} {content content' : Identity}
  {fields fields' answers answers' : Fields Value} {tags tags' : Tags}
  {violations : List Violation}

/-- A field among the others has a related one among the others. -/
theorem mem_otherFields_related (congruence : Value.Congruence related)
    (same : related (.object content fields tags) (.object content' fields' tags'))
    {key : String} {item : Value} (member : (key, item) ∈ otherFields wire properties fields) :
    ∃ item', (key, item') ∈ otherFields wire properties fields' ∧ related item item' := by
  obtain ⟨inside, untaken, there⟩ := mem_otherFields.mp member
  obtain ⟨item', inside', alike⟩ := congruence.field same inside
  have there' := (congruence.isUndefined_eq alike).symm.trans there
  exact ⟨item', mem_otherFields.mpr ⟨inside', untaken, there'⟩, alike⟩

/-- Fields that are accepted in one way are not refused in the other. -/
theorem FieldsStep.not_refused (congruence : Value.Congruence related)
    (concord : Concord related judges judges')
    (same : related (.object content fields tags) (.object content' fields' tags'))
    (step : FieldsStep judges wire drop properties additional fields answers) :
    ¬ FieldsRefused judges' wire drop properties additional fields' violations := by
  intro refused
  obtain ⟨found, extras, permitted, declared, others⟩ := step
  have back := congruence.symm same
  have lookups := congruence.lookup same
  have undefined := fun key => congruence.isUndefined_eq (lookups key)
  cases refused with
  | forbidden member forbidden =>
    obtain ⟨item, inside, _⟩ := congruence.field back member
    exact permitted _ inside forbidden
  | @missing property member absent required =>
    have step := declared property member
    generalize found property.name = answer at step
    cases step with
    | absent _ optional => cases optional.symm.trans required
    | present there _ => cases ((undefined _).symm.trans there).symm.trans absent
  | @property property causes member present refused =>
    have step := declared property member
    generalize found property.name = answer at step
    cases step with
    | absent missing _ => cases ((undefined _).symm.trans missing).symm.trans present
    | present _ judged => exact concord.not_refused (lookups _) judged refused
  | others refused =>
    cases refused with
    | unexpected closed kept member =>
      subst closed
      obtain ⟨item, inside, _⟩ := mem_otherFields_related congruence back member
      rcases others.2 with drops | none
      · cases kept.symm.trans drops
      · rw [none] at inside
        cases inside
    | judged typed member refused =>
      subst typed
      obtain ⟨item, inside, alike⟩ := mem_otherFields_related congruence back member
      obtain ⟨_, _, _, judged⟩ := forall₂_mem others inside
      exact concord.not_refused (congruence.symm alike) judged refused

/-- An answer of one way is under its key among those of the other. -/
theorem FieldsStep.mate (congruence : Value.Congruence related)
    (concord : Concord related judges judges')
    (same : related (.object content fields tags) (.object content' fields' tags'))
    (step : FieldsStep judges wire drop properties additional fields answers)
    (step' : FieldsStep judges' wire drop properties additional fields' answers') {key : String}
    {answer : Value} (member : (key, answer) ∈ answers) :
    ∃ answer', (key, answer') ∈ answers' ∧ related answer answer' := by
  obtain ⟨found', extras', _, declared', others'⟩ := step'
  rcases step.origin member with ⟨property, listed, rfl, there, judged⟩ | ⟨item, inside, how⟩
  · have alike := congruence.lookup same (readKey wire property)
    have there' := (congruence.isUndefined_eq alike).symm.trans there
    have step' := declared' property listed
    cases answered : found' property.name with
    | none =>
      rw [answered] at step'
      cases step' with
      | absent missing _ => cases missing.symm.trans there'
    | some answer' =>
      rw [answered] at step'
      cases step' with
      | present _ judged' =>
        have inside := mem_declaredAnswers.mpr ⟨property, listed, rfl, answered⟩
        exact ⟨answer', List.mem_append_left _ inside, concord.answers alike judged judged'⟩
  · obtain ⟨item', inside', alike⟩ := mem_otherFields_related congruence same inside
    rcases how with ⟨rfl, rfl⟩ | ⟨body, rfl, judged⟩
    · obtain rfl : extras' = _ := others'
      exact ⟨item', List.mem_append_right _ inside', alike⟩
    · obtain ⟨⟨_, answer'⟩, answered, rfl, judged'⟩ := forall₂_mem others' inside'
      exact ⟨answer', List.mem_append_right _ answered, concord.answers alike judged judged'⟩

end

/-! ## Options and components -/

/-- Counted answers of the same numbers that are related. -/
abbrev Counted (related : Value → Value → Prop) : List (Nat × Value) → List (Nat × Value) → Prop :=
  List.Forall₂ (fun entry entry' => entry.1 = entry'.1 ∧ related entry.2 entry'.2)

/-- Trials that find the same options to accept, with related answers, have related verdicts. -/
theorem Trial.verdict_related {trial trial' : Trial}
    (preferred : Counted related trial.preferred trial'.preferred)
    (matched : Counted related trial.matched trial'.matched) :
    trial.verdict.Related related trial'.verdict := by
  obtain ⟨first, second, failures⟩ := trial
  obtain ⟨first', second', failures'⟩ := trial'
  simp only at preferred matched
  unfold Trial.verdict
  cases preferred with
  | cons head tail =>
    cases tail with
    | nil => exact .accepted head.2
    | cons _ _ => exact .rejected _ _
  | nil =>
    cases matched with
    | nil => exact .rejected _ _
    | cons head tail =>
      cases tail with
      | nil => exact .accepted head.2
      | cons _ _ => exact .rejected _ _

/-- What related verdicts amount to is related. -/
theorem tally_related (congruence : Value.Congruence related) {value value' : Value}
    (same : related value value') {options : List Validator} {verdicts verdicts' : List Verdict}
    (each : List.Forall₂ (Verdict.Related related) verdicts verdicts') (position : Nat) :
    (tally value position options verdicts).verdict.Related related
      (tally value' position options verdicts').verdict := by
  have preferable : ∀ (option : Validator) {answer answer' : Value}, related answer answer' →
      isPreferred option value answer = isPreferred option value' answer' := by
    intro option answer answer' answers
    simp only [isPreferred, Value.hasTag, congruence.tags_eq same, congruence.eq_congr answers same]
  have counted : ∀ (position : Nat),
      Counted related (tally value position options verdicts).preferred
        (tally value' position options verdicts').preferred ∧
      Counted related (tally value position options verdicts).matched
        (tally value' position options verdicts').matched := by
    induction each generalizing options with
    | nil => intro position; rcases options with _ | ⟨_, _⟩ <;> exact ⟨.nil, .nil⟩
    | cons head _ ih =>
      intro position
      rcases options with _ | ⟨option, rest⟩
      · cases head <;> exact ⟨.nil, .nil⟩
      · obtain ⟨preferred, matched⟩ := @ih rest (position + 1)
        cases head with
        | rejected => exact ⟨preferred, matched⟩
        | accepted answers =>
          simp only [tally, preferable option answers]
          split
          · exact ⟨.cons ⟨rfl, answers⟩ preferred, matched⟩
          · exact ⟨preferred, .cons ⟨rfl, answers⟩ matched⟩
  exact Trial.verdict_related (counted position).1 (counted position).2

/-- Components that judge in ways that agree pass a value on alike. -/
theorem Chain.agree (congruence : Value.Congruence related) {α : Type}
    {judges judges' : α → Value → Verdict → Prop} (concord : Concord related judges judges')
    {components : List α} {value value' : Value} {tags : Tags} {verdict verdict' : Verdict}
    (same : related value value') (chain : Chain judges components value tags verdict)
    (chain' : Chain judges' components value' tags verdict') :
    verdict.Related related verdict' := by
  induction components generalizing value value' tags with
  | nil =>
    cases chain
    cases chain'
    exact .accepted (congruence.withTags same tags)
  | cons component rest ih =>
    cases chain with
    | next judged further =>
      cases chain' with
      | next judged' further' =>
        have answers := concord.answers same judged judged'
        rw [← congruence.tags_eq answers] at further'
        exact ih answers further further'
      | refused number refused => exact absurd refused (concord.not_refused same judged)
    | refused number refused =>
      cases chain' with
      | next judged' =>
        exact absurd refused
          ((concord.symm congruence).not_refused (congruence.symm same) judged')
      | refused => exact .rejected _ _

end Validator

namespace Context

variable {context : Context} {judges judges' : Schema → Value → Verdict → Prop}
  {value value' : Value} {verdict verdict' : Verdict}

/-- The option that a discriminator selects for the value, if it is an object. -/
def selection? (context : Context) (discriminator : Discriminator) (choices : List Schema) :
    Value → Option Schema
  | .object _ fields tags =>
    discriminator.chosen? choices (context.decisive discriminator choices fields tags)
  | _ => none

/-- Related values select the same option. -/
theorem selection?_congr (congruence : Value.Congruence related) (discriminator : Discriminator)
    (choices : List Schema) (same : related value value') :
    context.selection? discriminator choices value =
      context.selection? discriminator choices value' := by
  have kinds := congruence.kind_eq same
  cases value with
  | object content fields tags =>
    cases value' with
    | object content' fields' tags' =>
      obtain rfl : tags = tags' := congruence.tags_eq same
      exact congruence.chosen?_eq (congruence.lookup same _) discriminator choices
    | _ => cases kinds
  | _ => cases value' <;> first | rfl | cases kinds

/-- What an option judges is the verdict, where a discriminator selects the option. Where it
selects none, the union refuses, or the options left aside are tried. -/
theorem UnionStep.by_selection {choices : List Schema} {discriminator : Discriminator}
    (found : Discriminator.find? context.definitions choices = some discriminator)
    (step : context.UnionStep judges choices value verdict) :
    (∃ choice, context.selection? discriminator choices value = some choice ∧
        judges choice value verdict) ∨
      (context.selection? discriminator choices value = none ∧
        ((discriminator.rest = [] ∧ ∃ violations, verdict = .rejected violations) ∨
          ∃ verdicts, List.Forall₂ (fun choice verdict => judges choice value verdict)
              (discriminator.aside choices) verdicts ∧
            context.tallied (discriminator.aside choices) value verdicts = verdict)) := by
  cases step with
  | selected decided object chosen judged =>
    obtain rfl := Option.some.inj (decided.symm.trans found)
    subst object
    exact .inl ⟨_, chosen, judged⟩
  | unknown decided complete object unchosen text =>
    obtain rfl := Option.some.inj (decided.symm.trans found)
    subst object
    exact .inr ⟨unchosen, .inl ⟨complete, _, rfl⟩⟩
  | scalar decided complete other =>
    obtain rfl := Option.some.inj (decided.symm.trans found)
    refine .inr ⟨?_, .inl ⟨complete, _, rfl⟩⟩
    cases value <;> first | rfl | exact absurd rfl other
  | aside decided unchosen judged amounts =>
    obtain rfl := Option.some.inj (decided.symm.trans found)
    refine .inr ⟨?_, .inr ⟨_, judged, amounts⟩⟩
    cases value with
    | object content fields tags => exact unchosen content fields tags rfl
    | _ => rfl
  | trial undecided judged amounts => cases undecided.symm.trans found

/-- A union without a discriminator tries all its options. -/
theorem UnionStep.undecided {choices : List Schema}
    (found : Discriminator.find? context.definitions choices = none)
    (step : context.UnionStep judges choices value verdict) :
    ∃ verdicts, List.Forall₂ (fun choice verdict => judges choice value verdict)
        choices verdicts ∧ context.tallied choices value verdicts = verdict := by
  cases step with
  | trial undecided judged amounts => exact ⟨_, judged, amounts⟩
  | selected decided => cases decided.symm.trans found
  | unknown decided => cases decided.symm.trans found
  | scalar decided => cases decided.symm.trans found
  | aside decided => cases decided.symm.trans found

/-- Options that are tried in ways that agree amount to related verdicts. -/
theorem tallied_related (congruence : Value.Congruence related)
    (concord : Concord related judges judges') (same : related value value')
    {options : List Schema} {verdicts verdicts' : List Verdict}
    (judged : List.Forall₂ (fun option verdict => judges option value verdict) options verdicts)
    (judged' : List.Forall₂ (fun option verdict => judges' option value' verdict) options
      verdicts') :
    (context.tallied options value verdicts).Related related
      (context.tallied options value' verdicts') := by
  refine Validator.tally_related congruence same ?_ 1
  have diagonal : List.Forall₂ Eq options options := List.forall₂_same.mpr (fun _ _ => rfl)
  refine forall₂_between judged diagonal judged' ?_
  rintro option verdict _ verdict' judged rfl judged'
  exact concord _ _ _ _ _ same judged judged'

/-- Where no options are left aside, trying them amounts to a refusal. -/
theorem tallied_of_complete {discriminator : Discriminator} {choices : List Schema}
    {verdicts : List Verdict} (complete : discriminator.rest = [])
    (judged : List.Forall₂ (fun choice verdict => judges choice value verdict)
      (discriminator.aside choices) verdicts) :
    ∃ violations, context.tallied (discriminator.aside choices) value verdicts =
      .rejected violations := by
  have none : discriminator.aside choices = [] := by rw [Discriminator.aside, complete]; rfl
  rw [none] at judged ⊢
  cases judged
  exact ⟨_, rfl⟩

/-- A union agrees when its options do. -/
theorem UnionStep.agree (congruence : Value.Congruence related)
    (concord : Concord related judges judges') {choices : List Schema}
    (same : related value value') (step : context.UnionStep judges choices value verdict)
    (step' : context.UnionStep judges' choices value' verdict') :
    verdict.Related related verdict' := by
  cases found : Discriminator.find? context.definitions choices with
  | none =>
    obtain ⟨verdicts, judged, rfl⟩ := step.undecided found
    obtain ⟨verdicts', judged', rfl⟩ := step'.undecided found
    exact tallied_related congruence concord same judged judged'
  | some discriminator =>
    have selections : context.selection? discriminator choices value =
        context.selection? discriminator choices value' :=
      selection?_congr congruence discriminator choices same
    rcases step.by_selection found with ⟨choice, selected, judged⟩ | ⟨none, outcome⟩
    · rcases step'.by_selection found with ⟨choice', selected', judged'⟩ | ⟨none', _⟩
      · obtain rfl := Option.some.inj ((selected.symm.trans selections).trans selected')
        exact concord _ _ _ _ _ same judged judged'
      · cases (selected.symm.trans selections).trans none'
    · rcases step'.by_selection found with ⟨choice', selected', _⟩ | ⟨_, outcome'⟩
      · cases (none.symm.trans selections).trans selected'
      · rcases outcome with ⟨complete, _, rfl⟩ | ⟨verdicts, judged, rfl⟩ <;>
          rcases outcome' with ⟨complete', _, rfl⟩ | ⟨verdicts', judged', rfl⟩
        · exact .rejected _ _
        · obtain ⟨_, refused⟩ := tallied_of_complete complete judged'
          rw [refused]
          exact .rejected _ _
        · obtain ⟨_, refused⟩ := tallied_of_complete complete' judged
          rw [refused]
          exact .rejected _ _
        · exact tallied_related congruence concord same judged judged'

/-! ## Schemas -/

variable (context) in
/-- Leaves judge related values alike, and what objects are answered with is related when their
parts agree. -/
structure Respects (related : Value → Value → Prop) : Prop where
  leaf : ∀ {schema value value' verdict verdict'}, schema.isLeaf = true → context.Sound schema →
    related value value' → context.Judges schema value verdict →
    context.Judges schema value' verdict' → verdict.Related related verdict'
  fields : ∀ {judges judges' : Schema → Value → Verdict → Prop} {wire drop properties additional}
    {content content' : Identity} {fields fields' answers answers' : Fields Value}
    {tags tags' : Tags}, Concord related judges judges' → (Property.names properties).Nodup →
    related (.object content fields tags) (.object content' fields' tags') →
    Validator.FieldsStep judges wire drop properties additional fields answers →
    Validator.FieldsStep judges' wire drop properties additional fields' answers' →
    ∀ place place' tagged, related (.object place answers tagged) (.object place' answers' tagged)

section

variable {schema : Schema} {node : Nat}

/-- What judges as an array and accepts in one way does not refuse in the other. -/
theorem Step.array_not_refused (congruence : Value.Congruence related)
    (concord : Concord related judges judges') {items : Schema} {least most : Option Nat}
    {answer : Value} {violations : List Violation}
    (shaped : context.shape schema = .array node items least most) (same : related value value')
    (step : context.Step judges schema value (.accepted answer)) :
    ¬ context.Step judges' schema value' (.rejected violations) := by
  intro refused
  obtain ⟨place, list, answers, found, count, _, each⟩ := step.array shaped
  have items := congruence.itemsOf?_rel context.settings same
  rw [found] at items
  rcases refused.array_refused shaped with
    none | ⟨list', found', ⟨reason, miscounted⟩ | ⟨_, item, causes, member, judged, _⟩⟩
  · rw [none] at items
    cases items
  · rw [found'] at items
    obtain ⟨alike⟩ := items
    rw [← alike.length_eq] at miscounted
    cases count.symm.trans miscounted
  · rw [found'] at items
    obtain ⟨alike⟩ := items
    obtain ⟨item, inside, alike⟩ := forall₂_mem_right alike member
    obtain ⟨_, _, accepted⟩ := forall₂_mem each inside
    exact concord.not_refused alike accepted judged

/-- What judges as an object and accepts in one way does not refuse in the other. -/
theorem Step.object_not_refused (congruence : Value.Congruence related)
    (concord : Concord related judges judges') {properties : List (Property Schema)}
    {additional : Additional Schema} {answer : Value} {violations : List Violation}
    (shaped : context.shape schema = .object node properties additional)
    (same : related value value') (step : context.Step judges schema value (.accepted answer)) :
    ¬ context.Step judges' schema value' (.rejected violations) := by
  intro refused
  obtain ⟨place, content, fields, answers, tags, rfl, _, step⟩ := step.object shaped
  rcases refused.object_refused shaped with other | ⟨content', fields', tags', rfl, judged⟩
  · exact other (congruence.kind_eq same).symm
  · obtain rfl : tags = tags' := congruence.tags_eq same
    exact step.not_refused congruence concord same judged

/-- What judges as an array answers related values alike. -/
theorem Step.array_related (congruence : Value.Congruence related)
    (concord : Concord related judges judges') {items : Schema} {least most : Option Nat}
    {answer answer' : Value} (shaped : context.shape schema = .array node items least most)
    (same : related value value') (step : context.Step judges schema value (.accepted answer))
    (step' : context.Step judges' schema value' (.accepted answer')) : related answer answer' := by
  obtain ⟨place, list, answers, found, _, rfl, each⟩ := step.array shaped
  obtain ⟨place', list', answers', found', _, rfl, each'⟩ := step'.array shaped
  have lists := congruence.itemsOf?_rel context.settings same
  rw [found, found'] at lists
  obtain ⟨alike⟩ := lists
  rw [← congruence.tags_eq same]
  apply congruence.array
  exact forall₂_between each alike each' (fun _ _ _ _ accepted alike accepted' =>
    concord.answers alike accepted accepted')

/-- What judges as an object answers related values alike. -/
theorem Step.object_related (congruence : Value.Congruence related)
    (respects : context.Respects related) (concord : Concord related judges judges')
    (sound : context.Sound schema) {properties : List (Property Schema)}
    {additional : Additional Schema} {answer answer' : Value}
    (shaped : context.shape schema = .object node properties additional)
    (same : related value value') (step : context.Step judges schema value (.accepted answer))
    (step' : context.Step judges' schema value' (.accepted answer')) : related answer answer' := by
  obtain ⟨place, content, fields, answers, tags, rfl, rfl, judged⟩ := step.object shaped
  obtain ⟨place', content', fields', answers', tags', rfl, rfl, judged'⟩ := step'.object shaped
  have names : (context.shape schema).DistinctNames :=
    (sound.reached (reaches_shape context schema)).here.distinctNames
  rw [shaped] at names
  obtain rfl : tags = tags' := congruence.tags_eq same
  exact respects.fields concord names same judged judged' _ _ _

/-- A leaf judges without parts. -/
theorem Step.leaf_judged (leaf : schema.isLeaf = true)
    (step : context.Step judges schema value verdict) : context.Judges schema value verdict := by
  have apart : ∀ {other : Schema}, context.shape schema = other → other.isLeaf = true := by
    intro other shape
    rw [← shape, shape_of_isLeaf leaf]
    exact leaf
  cases step with
  | leaf _ judged => exact judged
  | notItems shape => cases apart shape
  | miscounted shape => cases apart shape
  | items place shape => cases apart shape
  | itemRefused index shape => cases apart shape
  | notObject shape => cases apart shape
  | fields place shape => cases apart shape
  | fieldRefused shape => cases apart shape
  | union shape =>
    subst shape
    cases leaf
  | intersection shape =>
    subst shape
    cases leaf
  | named shape =>
    subst shape
    cases leaf

/-- Judgements that go step by step agree when those of the parts do. -/
theorem Step.agree (congruence : Value.Congruence related) (respects : context.Respects related)
    (concord : Concord related judges judges') (sound : context.Sound schema)
    (same : related value value') (step : context.Step judges schema value verdict)
    (step' : context.Step judges' schema value' verdict') : verdict.Related related verdict' := by
  by_cases leaf : schema.isLeaf = true
  · exact respects.leaf leaf sound same (step.leaf_judged leaf) (step'.leaf_judged leaf)
  by_cases container : (context.shape schema).isContainer = true
  · have clash : ∀ {judges judges' : Schema → Value → Verdict → Prop} {value value' answer : Value}
        {violations : List Violation}, Concord related judges judges' → related value value' →
        context.Step judges schema value (.accepted answer) →
        ¬ context.Step judges' schema value' (.rejected violations) := by
      intro judges judges' value value' answer violations concord same step
      cases shaped : context.shape schema with
      | array node items least most =>
        exact step.array_not_refused congruence concord shaped same
      | object node properties additional =>
        exact step.object_not_refused congruence concord shaped same
      | _ =>
        rw [shaped] at container
        cases container
    cases verdict with
    | rejected violations =>
      cases verdict' with
      | rejected violations' => exact .rejected _ _
      | accepted answer' =>
        exact absurd step (clash (concord.symm congruence) (congruence.symm same) step')
    | accepted answer =>
      cases verdict' with
      | rejected violations' => exact absurd step' (clash concord same step)
      | accepted answer' =>
        cases shaped : context.shape schema with
        | array node items least most =>
          exact .accepted (step.array_related congruence concord shaped same step')
        | object node properties additional =>
          exact .accepted
            (step.object_related congruence respects concord sound shaped same step')
        | _ =>
          rw [shaped] at container
          cases container
  · rcases step.by_facets (Bool.eq_false_iff.mpr leaf) (Bool.eq_false_iff.mpr container) with
      ⟨node, choices, rfl, judged⟩ | ⟨node, components, rfl, judged⟩ |
      ⟨ref, inner, rfl, judged, rfl⟩
    · exact judged.agree congruence concord same step'.by_options
    · exact judged.agree congruence concord same step'.by_components
    · obtain ⟨_, inner', equal, judged', rfl⟩ :=
        ((step'.by_facets rfl (Bool.eq_false_iff.mpr container)).resolve_left
          (by simp)).resolve_left (by simp)
      cases equal
      exact (concord _ _ _ _ _ same judged judged').map congruence _

end

/-- The verdict is related to every judgement that the supply makes of related values. -/
def Supply.Shares (supply : context.Supply) (related : Value → Value → Prop) (schema : Schema)
    (value : Value) (verdict : Verdict) : Prop :=
  ∀ value' verdict', related value value' → supply.Judges schema value' verdict' →
    verdict.Related related verdict'

/-- What a supply shares is in concord with what it judges. -/
theorem Supply.shares_concord (supply : context.Supply) (related : Value → Value → Prop) :
    Concord related (supply.Shares related) supply.Judges :=
  fun _ _ _ _ _ same shares judged => shares _ _ same judged

/-- Whatever the surroundings, and whenever the validators were made, verdicts on related values
are related. -/
theorem Supply.judges_related (congruence : Value.Congruence related)
    (respects : context.Respects related) {supply supply' : context.Supply} {schema : Schema}
    (sound : context.Sound schema) (same : related value value')
    (judged : supply.Judges schema value verdict)
    (judged' : supply'.Judges schema value' verdict') : verdict.Related related verdict' := by
  suffices shares : supply'.Shares related schema value verdict from shares _ _ same judged'
  clear same judged'
  obtain ⟨earlier, made, fuel, place, ended⟩ := judged
  induction fuel using Nat.strongRecOn generalizing schema earlier place value verdict with
  | ind fuel ih =>
  intro value' verdict' same judged'
  have below : supply.Below (supply'.Shares related) schema fuel :=
    fun part reached moment there less fewer origin item result ended =>
      ih less fewer (sound.reached reached) moment there origin ended
  exact (attempt_step made below sound ended).agree congruence respects
    (supply'.shares_concord related) sound same (judged_step sound judged')

/-- Verdicts on related values are related. -/
theorem judges_related (congruence : Value.Congruence related)
    (respects : context.Respects related) {schema : Schema} (sound : context.Sound schema)
    (same : related value value') (judged : context.Judges schema value verdict)
    (judged' : context.Judges schema value' verdict') : verdict.Related related verdict' := by
  rw [← judges_own] at judged judged'
  exact Supply.judges_related congruence respects sound same judged judged'

end Context

/-! ## Values that differ in identities only -/

/-- To agree is to be related by identity up to the identities of contents. -/
theorem Verdict.agree_of_related {verdict verdict' : Verdict}
    (same : verdict.Related Value.Identical verdict') : verdict.Agree verdict' := by
  cases same with
  | accepted same => exact .accepted same
  | rejected violations violations' => exact .rejected _ _

/-- Identity of values is a congruence. -/
theorem Value.congruence_identical : Value.Congruence Value.Identical where
  symm alike := alike.symm
  kind_eq alike := alike.kind_eq
  tags_eq alike := alike.tags_eq
  withTags alike := alike.withTags
  eq_congr alike others := alike.eq_congr others
  literal alike := by
    rw [alike.literal?_eq]
    cases Value.literal? _ with
    | none => exact .none
    | some literal => exact .some literal.same_refl
  items alike := (Value.like_array_iff.mp alike).2.1
  array items _ _ _ := Value.like_array_iff.mpr ⟨trivial, items, rfl⟩
  lookup alike key := Fields.Like.lookup (Value.like_object_iff.mp alike).2.1 key
  field alike member := by
    obtain ⟨⟨_, item'⟩, inside, rfl, same⟩ :=
      forall₂_mem (Value.like_object_iff.mp alike).2.1 member
    exact ⟨item', inside, same⟩

namespace Validator

variable {allowed : Identity → Identity → Prop}

section

variable {α : Type} {properties : List (Property α)} {fields fields' : Fields Value}

/-- Alike fields have alike fields among the others. -/
theorem otherFields_like (wire : Bool) (properties : List (Property α))
    (alike : fields.Like allowed fields') :
    Fields.Like allowed (otherFields wire properties fields)
      (otherFields wire properties fields') := by
  unfold otherFields
  induction alike with
  | nil => exact .nil
  | @cons entry entry' _ _ head tail ih =>
    have same : (!(isTaken wire properties entry.1 || entry.2.isUndefined)) =
        (!(isTaken wire properties entry'.1 || entry'.2.isUndefined)) := by
      rw [head.1, head.2.isUndefined_eq]
    rw [List.filter_cons, List.filter_cons, ← same]
    split
    · exact .cons head ih
    · exact ih

/-- Alike answers under the same names are alike fields. -/
theorem declaredAnswers_like {found found' : String → Option Value}
    (same : ∀ property ∈ properties,
      Option.Rel (Value.Like allowed) (found property.name) (found' property.name)) :
    Fields.Like allowed (declaredAnswers properties found)
      (declaredAnswers properties found') := by
  induction properties with
  | nil => exact .nil
  | cons property rest ih =>
    have first := same property (.head _)
    have later := ih (fun property member => same property (.tail _ member))
    simp only [declaredAnswers, List.filterMap_cons] at later ⊢
    cases answer : found property.name <;> cases answer' : found' property.name <;>
      rw [answer, answer'] at first <;> cases first
    · exact later
    · next alike => exact .cons ⟨rfl, alike⟩ later

end

/-- Fields that are accepted in both ways are answered alike. -/
theorem FieldsStep.like {α : Type} {judges judges' : α → Value → Verdict → Prop} {wire drop : Bool}
    {properties : List (Property α)} {additional : Additional α}
    {fields fields' answers answers' : Fields Value}
    (concord : Concord Value.Identical judges judges')
    (alike : Fields.Like (fun _ _ => True) fields fields')
    (step : FieldsStep judges wire drop properties additional fields answers)
    (step' : FieldsStep judges' wire drop properties additional fields' answers') :
    Fields.Like (fun _ _ => True) answers answers' := by
  obtain ⟨found, extras, _, declared, others⟩ := step
  obtain ⟨found', extras', _, declared', others'⟩ := step'
  have lookups : ∀ key, (fields.lookup key).Identical (fields'.lookup key) := alike.lookup
  have rest := otherFields_like wire properties alike
  refine List.rel_append (declaredAnswers_like (fun property member => ?_)) ?_
  · have step := declared property member
    have step' := declared' property member
    generalize found property.name = answer at step ⊢
    generalize found' property.name = answer' at step' ⊢
    have same := (lookups (readKey wire property)).isUndefined_eq
    cases step with
    | absent missing _ =>
      cases step' with
      | absent => exact .none
      | present there _ => cases (same.symm.trans missing).symm.trans there
    | present there judged =>
      cases step' with
      | absent missing _ => cases (same.symm.trans there).symm.trans missing
      | present _ judged' => exact .some (concord.answers (lookups _) judged judged')
  · cases additional with
    | keep =>
      obtain rfl : extras = _ := others
      obtain rfl : extras' = _ := others'
      exact rest
    | deny =>
      rw [others.1, others'.1]
      exact .nil
    | each body =>
      refine forall₂_between others rest others' ?_
      rintro entry answer entry' answer' ⟨key, judged⟩ ⟨same, alike⟩ ⟨key', judged'⟩
      exact ⟨key.symm.trans (same.trans key'), concord.answers alike judged judged'⟩

end Validator

namespace Context

variable {context : Context}

/-- Leaves respect the identity of values. -/
theorem respects_identical : context.Respects Value.Identical where
  leaf leaf sound alike judged judged' := by
    cases judged_like sound alike judged judged' with
    | accepted same => exact .accepted same
    | rejected violations => exact .rejected _ _
  fields concord _ alike step step' _ _ _ :=
    Value.like_object_iff.mpr
      ⟨trivial, step.like concord (Value.like_object_iff.mp alike).2.1 step', rfl⟩

/-- Whatever the surroundings, and whenever the validators were made, verdicts on identical
values agree. -/
theorem Supply.judges_agree {supply supply' : context.Supply} {schema : Schema}
    {value value' : Value} {verdict verdict' : Verdict}
    (sound : context.Sound schema) (alike : value.Identical value')
    (judged : supply.Judges schema value verdict)
    (judged' : supply'.Judges schema value' verdict') : verdict.Agree verdict' :=
  Verdict.agree_of_related (judges_related Value.congruence_identical respects_identical sound
    alike judged judged')

end Context

end Conform
