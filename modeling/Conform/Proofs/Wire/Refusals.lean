import Conform.Proofs.Revalidation.Clear
import Conform.Proofs.Wire.Decoded

/-!
# Refusals after decoding

Stages of decoding differ in names and tags only. So a schema that accepts a value at one stage
refuses it at another for one reason: tags made an option preferred, or let another option
match, and somewhere several of them match. Where no schema finds the value ambiguous as it
arrived, none of them refuses one stage and accepts another.
-/

namespace Conform

open Violation (AnyAmbiguous)
open Validator (readKey isTaken otherFields FieldsStep FieldsRefused)

namespace Context

variable {context : Context} {panel : Panel} {value first second answer : Value} {schema : Schema}
  {violations : List Violation}

variable (context) in
/-- No schema that is called refuses the value, or a part of it, as several options match. -/
def Unambiguous : Panel → Value → Prop :=
  context.Everywhere (fun panel value => ∀ judge, context.Calls panel value judge →
    ∀ violations, context.Judges judge value (.rejected violations) → ¬ AnyAmbiguous violations)

/-- Panels that call the same schemas find the same ambiguous. -/
theorem Unambiguous.of_calls {panel' : Panel} (clear : context.Unambiguous panel value)
    (same : context.Calls panel' value = context.Calls panel value) :
    context.Unambiguous panel' value :=
  Everywhere.of_calls clear same (fun here => same ▸ here)

variable (context) in
/-- What the schema accepts at one stage of decoding, it refuses at another only because several
options match, and then it, or another, finds the value ambiguous as it arrived. -/
def RefusesOnlyAmbiguously (schema : Schema) (depth : Nat) : Prop :=
  ∀ panel value, value.depth ≤ depth → context.CalledCompatibly panel value schema →
    ∀ first second answer violations, context.Decodes panel value first →
      context.Decodes panel value second → context.Judges schema first (.accepted answer) →
      context.Judges schema second (.rejected violations) →
      AnyAmbiguous violations ∧ ¬ context.Unambiguous panel value

/-! ## Objects -/

section

variable {content content' : Identity} {fields fields' answers : Fields Value} {tags tags' : Tags}
  {node : Nat} {properties : List (Property Schema)} {additional : Additional Schema}

/-- A field that an object type does not take at one stage lies where it does not take it at
another. -/
theorem Decodes.left_over {raw : Identity} {given : Fields Value} {key : String} {item : Value}
    (called : context.Calls panel (.object raw given []) schema)
    (shaped : context.shape schema = .object node properties additional)
    (compatibly : context.CompatibleThroughout panel (.object raw given []))
    (decodes : context.Decodes panel (.object raw given []) (.object content fields tags))
    (decodes' : context.Decodes panel (.object raw given []) (.object content' fields' tags'))
    (among : (key, item) ∈ otherFields (!tags'.has schema) properties fields') :
    ∃ inner outer before,
      context.Lies (context.Calls panel (.object raw given [])) tags inner outer before ∧
        (before, Fields.lookup before fields) ∈
          otherFields (!tags.has schema) properties fields ∧
        context.Decodes (context.panelAt (context.Calls panel (.object raw given [])) inner)
          (Fields.lookup outer given) (Fields.lookup before fields) ∧
        context.Decodes (context.panelAt (context.Calls panel (.object raw given [])) inner)
          (Fields.lookup outer given) item ∧
        Schema.bodyAt? properties additional inner = Schema.otherBody? additional := by
  have apart := fun judge node' properties' additional' called' shaped' =>
    (compatibly.compatible rfl).apart judge node' properties' additional' schema node properties
      additional called' called shaped' shaped
  cases decodes with
  | scalar plain => cases plain
  | object distinct _ _ _ each =>
  cases decodes' with
  | scalar plain => cases plain
  | object distinct' _ _ covered' each' =>
  obtain ⟨member, untaken, there'⟩ := Validator.mem_otherFields.mp among
  have same := Fields.lookup_of_mem distinct' member
  obtain ⟨inner, outer, lies⟩ := (covered' key (same ▸ there')).resolve_right fun hidden =>
    Bool.eq_false_iff.mp untaken (hidden.2.taken called shaped _)
  obtain ⟨before, lay, free⟩ := lies.elsewhere called shaped apart untaken tags
  have said := each _ _ _ lay
  have said' : context.Decodes _ _ item := same ▸ each' _ _ _ lies
  have there := said.isUndefined_eq.symm.trans (said'.isUndefined_eq.trans there')
  exact ⟨inner, outer, before, lay,
    Validator.mem_otherFields.mpr ⟨Fields.mem_of_lookup there, free, there⟩, said, said',
    Schema.bodyAt?_other (lies.undeclared called shaped apart untaken)⟩

/-- An object type that accepts the fields at one stage refuses them at another by a field that
it accepts at the one and refuses at the other. -/
theorem Decodes.fields_refused {blamed : Prop} (called : context.Calls panel value schema)
    (shaped : context.shape schema = .object node properties additional)
    (names : (Property.names properties).Nodup)
    (compatibly : context.CompatibleThroughout panel value)
    (decodes : context.Decodes panel value (.object content fields tags))
    (decodes' : context.Decodes panel value (.object content' fields' tags'))
    (each : ∀ raw given, value = .object raw given [] → ∀ inner outer key key' body answer causes,
      context.Lies (context.Calls panel value) tags inner outer key →
      (Fields.lookup outer given).isUndefined = false →
      Schema.bodyAt? properties additional inner = some body →
      context.Decodes (context.panelAt (context.Calls panel value) inner)
        (Fields.lookup outer given) (Fields.lookup key fields) →
      context.Decodes (context.panelAt (context.Calls panel value) inner)
        (Fields.lookup outer given) (Fields.lookup key' fields') →
      context.Judges body (Fields.lookup key fields) (.accepted answer) →
      context.Judges body (Fields.lookup key' fields') (.rejected causes) →
      AnyAmbiguous causes ∧ blamed)
    (step : FieldsStep context.Judges (!tags.has schema) false properties additional fields answers)
    (refused : FieldsRefused context.Judges (!tags'.has schema) false properties additional fields'
      violations) : AnyAmbiguous violations ∧ blamed := by
  cases decodes with
  | scalar plain => cases plain
  | @object _ raw _ given _ _ distinct forbidden marked covered each₁ =>
  cases decodes' with
  | scalar plain => cases plain
  | object distinct' forbidden' marked' covered' each₂ =>
  have whole : context.Decodes panel (.object raw given []) (.object content fields tags) :=
    .object distinct forbidden marked covered each₁
  have whole' : context.Decodes panel (.object raw given []) (.object content' fields' tags') :=
    .object distinct' forbidden' marked' covered' each₂
  cases refused with
  | @forbidden key item member among =>
    obtain ⟨_, _, permitted, _, _⟩ := step
    have inside := (forbidden key among).mp ((forbidden' key among).mpr (Fields.mem_keys member))
    obtain ⟨item', inside⟩ := Fields.exists_mem_of_mem_keys inside
    exact absurd among (permitted _ inside)
  | @missing property listed absent required =>
    obtain ⟨found, extras, _, declared, _⟩ := step
    have said := each₁ _ _ _ (.declared called shaped listed)
    have said' := each₂ _ _ _ (.declared called shaped listed)
    have missing := said.isUndefined_eq.symm.trans (said'.isUndefined_eq.trans absent)
    have step := declared property listed
    generalize found property.name = answer at step
    cases step with
    | absent _ optional => cases optional.symm.trans required
    | present there _ => cases there.symm.trans missing
  | @property property causes listed present refused =>
    have lies : context.Lies _ tags _ _ _ := .declared called shaped listed
    have said := each₁ _ _ _ lies
    have said' := each₂ _ _ _ (.declared called shaped listed)
    have there := said'.isUndefined_eq.trans present
    have body : Schema.bodyAt? properties additional property.name = some property.body :=
      Schema.bodyAt?_declared names listed
    have outcome := step.declared_outcome names distinct listed
    generalize Fields.lookup property.name answers = answer at outcome
    cases outcome with
    | absent missing none => cases there.symm.trans (said.isUndefined_eq.trans missing)
    | kept none => cases none
    | judged some _ judged =>
      cases some
      obtain ⟨any, blame⟩ :=
        each _ _ rfl _ _ _ _ _ _ _ lies there body said said' judged refused
      exact ⟨any.under _, blame⟩
  | others refused =>
    cases refused with
    | @unexpected key item closed kept member =>
      subst closed
      obtain ⟨_, _, _, _, among, _⟩ :=
        Decodes.left_over called shaped compatibly whole whole' member
      obtain ⟨_, _, _, _, others⟩ := step
      rw [others.2.resolve_left Bool.false_ne_true] at among
      cases among
    | @judged key item body causes typed member refused =>
      subst typed
      obtain ⟨inner, outer, before, lay, among, said, said', some⟩ :=
        Decodes.left_over called shaped compatibly whole whole' member
      obtain ⟨_, free, there⟩ := Validator.mem_otherFields.mp among
      have outcome := step.other_outcome names distinct free
      generalize Fields.lookup before answers = answer at outcome
      have same := Fields.lookup_of_mem distinct' (Validator.mem_otherFields.mp member).1
      cases outcome with
      | absent missing none => cases there.symm.trans missing
      | kept none => cases none
      | judged typed _ judged =>
        cases typed
        obtain ⟨any, blame⟩ := each _ _ rfl _ _ _ key _ _ _ lay
          (said.isUndefined_eq.trans there) some said (same ▸ said') judged (same ▸ refused)
        exact ⟨any.under _, blame⟩

end

/-! ## Unions -/

section

variable {options : List Schema} {verdicts verdicts' : List Verdict} (untagged : value.tags = [])
  (judged : List.Forall₂ (fun option verdict => context.Judges option value verdict) options
    verdicts)
  (judged' : List.Forall₂ (fun option verdict => context.Judges option second verdict) options
    verdicts')

include untagged judged judged'

/-- When no option refuses the value that accepts the second one, and several accept that, they
make the value ambiguous, as it has no tags to prefer one. -/
theorem several_ambiguous (kept : ∀ option ∈ options, ∀ answer causes,
      context.Judges option second (.accepted answer) →
      ¬ context.Judges option value (.rejected causes))
    (several : ∀ answer, context.tallied options second verdicts' ≠ .accepted answer)
    (listed : .accepted answer ∈ verdicts') :
    ∃ causes, context.tallied options value verdicts = .rejected causes ∧ AnyAmbiguous causes := by
  have lengths : (options.map (Schema.validator context.definitions)).length = verdicts.length := by
    rw [List.length_map, judged.length_eq]
  have lengths' : (options.map (Schema.validator context.definitions)).length =
      verdicts'.length := by
    rw [List.length_map, judged'.length_eq]
  have carried : ∀ (index : Nat) (answer : Value), verdicts'[index]? = some (.accepted answer) →
      ∃ answer, verdicts[index]? = some (.accepted answer) := by
    intro index answer found
    obtain ⟨option, listed, accepted⟩ := forall₂_getElem?_right judged' found
    obtain ⟨verdict, found', verdict'⟩ := forall₂_getElem? judged listed
    cases verdict with
    | accepted answer => exact ⟨answer, found'⟩
    | rejected causes =>
      exact absurd verdict' (kept option (List.mem_of_getElem? listed) _ _ accepted)
  obtain ⟨index, found⟩ := List.getElem?_of_mem listed
  obtain ⟨own, found'⟩ := carried index answer found
  cases amounts : context.tallied options value verdicts with
  | accepted answer =>
    obtain ⟨only, _, alone⟩ := Validator.alone_of_tally_verdict untagged lengths amounts
    refine absurd (Validator.tally_verdict_of_alone second 1 lengths' found ?_) (several _)
    intro other answer' found''
    obtain ⟨_, carried⟩ := carried other answer' found''
    exact (alone other _ carried).trans (alone index own found').symm
  | rejected causes =>
    refine ⟨causes, rfl, ?_⟩
    rcases Validator.Trial.verdict_rejected amounts with
      ⟨none, rfl⟩ | ⟨_, ⟨numbers, rfl⟩ | ⟨numbers, rfl⟩⟩
    · have answers := Validator.tally_answers value 1 lengths
      rw [none] at answers
      cases List.filterMap_eq_nil_iff.mp answers.symm.eq_nil _ (List.mem_of_getElem? found')
    · exact ⟨_, .head _, .preferred [] numbers⟩
    · exact ⟨_, .head _, .options [] numbers⟩

/-- Options refuse the second value ambiguously, one of which accepted another stage of it. -/
theorem tallied_refused {blamed : Prop}
    (amounts : context.tallied options second verdicts' = .rejected violations) {choice : Schema}
    (member : choice ∈ options)
    (each : ∀ causes, context.Judges choice second (.rejected causes) →
      AnyAmbiguous causes ∧ blamed)
    (back : ∀ option ∈ options, ∀ answer causes, context.Judges option second (.accepted answer) →
      context.Judges option value (.rejected causes) → blamed)
    (blame : ∀ causes, context.tallied options value verdicts = .rejected causes →
      AnyAmbiguous causes → blamed) : AnyAmbiguous violations ∧ blamed := by
  refine ⟨tallied_ambiguous judged' amounts member (fun causes refused => (each causes refused).1),
    ?_⟩
  obtain ⟨verdict, listed, result⟩ := forall₂_mem judged' member
  cases verdict with
  | rejected causes => exact (each causes result).2
  | accepted answer =>
    by_contra clear
    obtain ⟨causes, refused, any⟩ := several_ambiguous untagged judged judged'
      (fun option listed answer causes accepted refused =>
        clear (back option listed answer causes accepted refused))
      (fun _ accepted => nomatch accepted.symm.trans amounts) listed
    exact clear (blame causes refused any)

end

/-- Leaves refuse no stage of what they accept. -/
theorem RefusesOnlyAmbiguously.leaf {depth : Nat} (leaf : schema.isLeaf = true)
    (sound : context.Sound schema) :
    context.RefusesOnlyAmbiguously schema depth := by
  intro panel value _ _ first second answer violations decodes decodes' acceptance refusal
  refine absurd refusal (leaf_not_refused leaf sound.here.knownFormats (fun plain => ?_) acceptance)
  obtain rfl := decodes.eq_of_scalar' plain
  exact decodes'.eq_of_scalar plain

/-- A name refuses only as several options match when what it stands for does. -/
theorem RefusesOnlyAmbiguously.named {ref : NamedRef} {depth : Nat}
    (sound : context.Sound (.named ref))
    (other : (context.definitions ref).isContainer = false)
    (further : context.RefusesOnlyAmbiguously (context.definitions ref) depth) :
    context.RefusesOnlyAmbiguously (.named ref) depth := by
  intro panel value shallow callee first second answer violations decodes decodes' acceptance
    refusal
  have handed : context.definitions ref ∈ context.delegates value (.named ref) := by
    simp [delegates, other]
  obtain ⟨inner, judged, tagged⟩ := (judged_step sound acceptance).by_definition other
  obtain ⟨answer, rfl, _⟩ := accepted_of_map tagged
  obtain ⟨inner', judged', tagged'⟩ := (judged_step sound refusal).by_definition other
  cases inner' with
  | accepted answer' => cases tagged'
  | rejected causes =>
    obtain rfl := Verdict.rejected.inj tagged'
    exact further panel value shallow (callee.delegate handed) _ _ _ _ decodes decodes' judged
      judged'

variable (network : context.settings = .fromNetwork)

include network

/-- A union refuses only as several options match when its options do. -/
theorem RefusesOnlyAmbiguously.union {node depth : Nat} {choices : List Schema}
    (sound : context.Sound (.union node choices))
    (grounded : (Schema.union node choices).Grounded context.definitions)
    (options : ∀ option ∈ choices, context.RefusesOnlyAmbiguously option depth) :
    context.RefusesOnlyAmbiguously (.union node choices) depth := by
  intro panel value shallow callee first second answer violations decodes decodes' acceptance
    refusal
  have wired := (Options.wired_of_network network).wired
  have lone := (Options.wired_of_network network).lone
  have whole := decodes_self callee.bare callee.compatibly
  have each : ∀ option ∈ context.delegates value (.union node choices), ∀ first second answer
      violations, context.Decodes panel value first → context.Decodes panel value second →
      context.Judges option first (.accepted answer) →
      context.Judges option second (.rejected violations) →
      AnyAmbiguous violations ∧ ¬ context.Unambiguous panel value :=
    fun option member => options option (delegate_facet member) panel value shallow
      (callee.delegate member)
  obtain ⟨bound, verdict, ended⟩ := exists_verdict lone sound grounded (.run 0) value
  have own : context.Judges (.union node choices) value verdict :=
    ⟨bound, .run 0, ended bound (Nat.le_refl bound)⟩
  have blame : ∀ causes, verdict = .rejected causes → AnyAmbiguous causes →
      ¬ context.Unambiguous panel value := by
    rintro causes rfl any clear
    exact clear.here _ callee.called causes own any
  have step := (judged_step sound acceptance).by_options
  have step' := (judged_step sound refusal).by_options
  have own := (judged_step sound own).by_options
  have selects : ∀ {stage}, context.Decodes panel value stage → ∀ discriminator,
      Discriminator.find? context.definitions choices = some discriminator →
      context.selection? discriminator choices stage =
        context.selection? discriminator choices value :=
    fun stage discriminator found => stage.selection?_eq wired callee found
  rcases union_delegates value node choices with ⟨choice, only, judged⟩ | tried
  · exact each choice (only ▸ .head _) _ _ _ _ decodes decodes' (judged (selects decodes) step)
      (judged (selects decodes') step')
  · obtain ⟨choice, member, accepted⟩ := step.accepted_delegate (selects decodes)
    have some : context.delegates value (.union node choices) ≠ [] := List.ne_nil_of_mem member
    obtain ⟨verdicts', judged', amounts'⟩ :=
      (tried (selects decodes') step').resolve_left (fun none => some none.1)
    obtain ⟨verdicts, judged, rfl⟩ :=
      (tried (selects whole) own).resolve_left (fun none => some none.1)
    exact tallied_refused callee.bare.here.untagged judged judged' amounts' member
      (fun causes => each choice member _ _ _ _ decodes decodes' accepted)
      (fun option listed _ _ accepted refused =>
        (each option listed _ _ _ _ decodes' whole accepted refused).2) blame

/-! ## Every other schema -/

/-- An array type refuses only as several options match when what judges the items does. -/
theorem RefusesOnlyAmbiguously.array {node depth : Nat} {items : Schema} {least most : Option Nat}
    (sound : context.Sound schema)
    (shaped : context.shape schema = .array node items least most)
    (further : ∀ less < depth, context.RefusesOnlyAmbiguously items less) :
    context.RefusesOnlyAmbiguously schema depth := by
  intro panel value shallow callee first second answer violations decodes decodes' acceptance
    refusal
  have lone := (Options.wired_of_network network).lone
  obtain ⟨place, list, answers, found, count, rfl, each⟩ :=
    (judged_step sound acceptance).array shaped
  obtain ⟨_, _, rfl⟩ := Validator.itemsOf?_eq_some lone found
  cases found
  cases decodes with
  | scalar plain => cases plain
  | @array _ _ _ raw _ _ _ lengths each₁ =>
  cases decodes' with
  | scalar plain => cases plain
  | @array _ _ _ _ list' _ _ lengths' each₂ =>
  rcases (judged_step sound refusal).array_refused shaped with
    none | ⟨_, found', ⟨reason, miscounted⟩ | ⟨index, item', causes, member, refused, rfl⟩⟩
  · cases none
  · cases found'
    rw [← lengths', lengths, count] at miscounted
    cases miscounted
  · cases found'
    obtain ⟨position, inside', rfl⟩ := List.getElem_of_mem member
    have within : position < raw.length := lengths' ▸ inside'
    have inside : position < list.length := lengths ▸ within
    have part := List.getElem_mem within
    obtain ⟨_, _, accepted⟩ := forall₂_mem each (List.getElem_mem inside)
    obtain ⟨any, blame⟩ := further _
      (Nat.lt_of_lt_of_le (Value.depth_lt_of_mem_contents part) shallow) _ _ (Nat.le_refl _)
      (callee.item shaped part) _ _ _ _ (each₁ position within inside)
      (each₂ position within inside') accepted refused
    exact ⟨any.under _, fun clear => blame (clear.inside (.item part))⟩

/-- An object type refuses only as several options match when what judges its fields does. -/
theorem RefusesOnlyAmbiguously.object {node depth : Nat} {properties : List (Property Schema)}
    {additional : Additional Schema} (sound : context.Sound schema)
    (shaped : context.shape schema = .object node properties additional)
    (further : ∀ body ∈ properties.map Property.body ++ additional.bodies, ∀ less < depth,
      context.RefusesOnlyAmbiguously body less) : context.RefusesOnlyAmbiguously schema depth := by
  intro panel value shallow callee first second answer violations decodes decodes' acceptance
    refusal
  have wired := (Options.wired_of_network network).wired
  have keep := (Options.wired_of_network network).keep
  have names : (context.shape schema).DistinctNames :=
    (sound.reached (reaches_shape context schema)).here.distinctNames
  rw [shaped] at names
  obtain ⟨place, content, fields, answers, tags, rfl, rfl, step⟩ :=
    (judged_step sound acceptance).object shaped
  rcases (judged_step sound refusal).object_refused shaped with
    other | ⟨content', fields', tags', rfl, refused⟩
  · cases decodes with
    | scalar plain => cases plain
    | object => cases decodes' <;> exact absurd rfl other
  rw [wired, keep, Bool.true_and] at step refused
  refine Decodes.fields_refused callee.called shaped names callee.compatibly decodes decodes' ?_
    step refused
  rintro raw given rfl inner outer key key' body answer causes lies there some said said' accepted
    refused
  have part := List.mem_map_of_mem (f := Prod.snd) (Fields.mem_of_lookup there)
  obtain ⟨any, blame⟩ := further body (Schema.mem_of_bodyAt? some) _
    (Nat.lt_of_lt_of_le (Value.depth_lt_of_mem_contents part) shallow) _ _ (Nat.le_refl _)
    (callee.field shaped lies some) _ _ _ _ said said' accepted refused
  exact ⟨any, fun clear => blame (clear.inside (.field lies.untouched))⟩

/-- An intersection refuses only as several options match when its components do. -/
theorem RefusesOnlyAmbiguously.intersection {node depth : Nat} {components : List Schema}
    (sound : context.Sound (.intersection node components))
    (further : ∀ component ∈ components, context.RefusesOnlyAmbiguously component depth) :
    context.RefusesOnlyAmbiguously (.intersection node components) depth := by
  intro panel value shallow callee first second answer violations decodes decodes' acceptance
    refusal
  have called := callee.called
  obtain ⟨component, member, item, item', answer, causes, number, ⟨said, said'⟩, accepted, refused,
    rfl⟩ := (judged_step sound acceptance).by_components.refused_related
      (fun item item' => context.Decodes (Panel.join panel components) value item ∧
        context.Decodes (Panel.join panel components) value item') (by
      rintro component member item item' answer answer' ⟨said, said'⟩ accepted accepted'
      have own : Panel.join panel components component := .inr member
      have first := answer_decodes network (sound.facet member) accepted (callee.component member)
        said
      have second := answer_decodes network (sound.facet member) accepted'
        (callee.component member) said'
      rw [Panel.add_of_own own] at first second
      exact ⟨first, second⟩) ⟨decodes.join called, decodes'.join called⟩
      ((judged_step sound refusal).by_components)
  obtain ⟨any, blame⟩ := further component member _ _ shallow (callee.component member) _ _ _ _
    said said' accepted refused
  exact ⟨any.group [] _, fun clear => blame (clear.of_calls (calls_join called))⟩

end Context

end Conform
