import Conform.Proofs.Conformance.Scalars
import Conform.Proofs.Discriminator.Dispatch

/-!
# What conforms is accepted, and nothing else

Under strict options, a value that carries no tags is accepted exactly when it conforms to
the schema. The schemas are those without intersections and formats, in which every union
either has no discriminator or is decided by it altogether.

A trial accepts a value without tags when exactly one option does. A dispatch runs one
option only; that no other option would accept is known from the candidates.
-/

namespace Conform

/-- A node whose judgements conformance describes. -/
@[mk_iff]
structure Schema.Plain (definitions : Definitions) (node : Schema) : Prop where
  distinctNames : node.DistinctNames
  apart : ∀ number components, node ≠ .intersection number components
  unformatted : ∀ number rules, node = .string number rules → rules.format = none
  decided : ∀ number choices discriminator, node = .union number choices →
    Discriminator.find? definitions choices = some discriminator → discriminator.rest = []

/-- Plain nodes are what builders see to, whatever formats there are. -/
theorem Schema.Plain.wellFormed {definitions : Definitions} {node : Schema}
    (plain : node.Plain definitions) (format : String → Option Validator) :
    node.WellFormed format where
  distinctNames := plain.distinctNames
  knownFormats := by
    cases node with
    | string number rules =>
      intro name named
      rw [plain.unformatted number rules rfl] at named
      cases named
    | _ => exact trivial

namespace Validator

variable {judges : Schema → Value → Verdict → Prop} {conforms : Schema → Value → Prop}
  {properties : List (Property Schema)} {additional : Additional Schema} {fields : Fields Value}
  (agree : ∀ body ∈ properties.map Property.body ++ additional.bodies, ∀ entry ∈ fields,
    ∀ verdict, judges body entry.2 verdict →
      (verdict.isAccepted = true ↔ conforms body entry.2))

include agree

/-- Accepted fields conform. -/
theorem FieldsStep.conform {answers : Fields Value}
    (step : FieldsStep judges false false properties additional fields answers) :
    FieldsConform conforms properties additional fields := by
  obtain ⟨found, extras, permitted, declared, others⟩ := step
  refine ⟨?_, ?_, ?_, ?_⟩
  · intro key forbidden among
    obtain ⟨entry, member, rfl⟩ := List.mem_map.mp among
    exact permitted entry member forbidden
  · intro property member required
    have step := declared property member
    generalize found property.name = answer at step
    cases step with
    | absent missing optional =>
      rw [required] at optional
      cases optional
    | present there judged =>
      rw [readKey_false] at there
      exact there
  · intro property member there
    have step := declared property member
    generalize found property.name = answer at step
    cases step with
    | absent missing optional =>
      rw [readKey_false, there] at missing
      cases missing
    | present there judged =>
      rw [readKey_false] at there judged
      have inside := Fields.mem_of_lookup there
      exact (agree _ (additional.declared_mem member) _ inside _ judged).mp rfl
  · intro key value member undeclared there
    have untaken : isTaken false properties key = false := by
      rw [Bool.eq_false_iff, ne_eq, isTaken_false]
      exact undeclared
    have among : (key, value) ∈ otherFields false properties fields :=
      mem_otherFields.mpr ⟨member, untaken, there⟩
    cases additional with
    | keep => exact trivial
    | deny =>
      rcases others.2 with drops | none
      · cases drops
      · rw [none] at among
        cases among
    | each body =>
      obtain ⟨_, _, _, judged⟩ := forall₂_mem others among
      exact (agree body (Additional.each_mem properties rfl) _ member _ judged).mp rfl

/-- Refused fields do not conform. -/
theorem FieldsRefused.not_conform {violations : List Violation}
    (refused : FieldsRefused judges false false properties additional fields violations) :
    ¬ FieldsConform conforms properties additional fields := by
  rintro ⟨permitted, required, declared, others⟩
  cases refused with
  | forbidden member forbidden =>
    exact permitted _ forbidden (Fields.mem_keys member)
  | missing member absent needed =>
    rw [readKey_false, required _ member needed] at absent
    cases absent
  | property member present judged =>
    rw [readKey_false] at present judged
    have conforming := declared _ member present
    have inside := Fields.mem_of_lookup present
    cases (agree _ (additional.declared_mem member) _ inside _ judged).mpr conforming
  | others refused =>
    have admitted : ∀ {key value}, (key, value) ∈ otherFields false properties fields →
        (key, value) ∈ fields ∧ additional.Admits conforms value := by
      intro key value among
      obtain ⟨member, untaken, there⟩ := mem_otherFields.mp among
      have undeclared : key ∉ Property.names properties := by
        rw [← isTaken_false, untaken]
        exact Bool.false_ne_true
      exact ⟨member, others key value member undeclared there⟩
    cases refused with
    | unexpected closed kept member =>
      subst closed
      exact (admitted member).2
    | judged typed member judged =>
      subst typed
      obtain ⟨inside, conforming⟩ := admitted member
      cases (agree _ (Additional.each_mem properties rfl) _ inside _ judged).mpr conforming

end Validator

namespace Context

variable {context : Context} {choices : List Schema} {value : Value}
  {conforms : Schema → Value → Prop}

/-- Options that are tried accept a value without tags exactly when one of them does alone. -/
theorem tallied_isAccepted_iff {verdicts : List Verdict} (untagged : value.tags = [])
    (judged : List.Forall₂ (fun choice verdict => context.Judges choice value verdict)
      choices verdicts)
    (agree : ∀ choice ∈ choices, ∀ verdict, context.Judges choice value verdict →
      (verdict.isAccepted = true ↔ conforms choice value)) :
    (context.tallied choices value verdicts).isAccepted = true ↔
      ∃! index : Nat, ∃ choice, choices[index]? = some choice ∧ conforms choice value := by
  have lengths : (choices.map (Schema.validator context.definitions)).length =
      verdicts.length := by
    rw [List.length_map, judged.length_eq]
  -- an option conforms where its verdict accepts
  have accepts : ∀ index : Nat, (∃ choice, choices[index]? = some choice ∧ conforms choice value) ↔
      ∃ answer, verdicts[index]? = some (.accepted answer) := by
    intro index
    constructor
    · rintro ⟨choice, listed, conforming⟩
      obtain ⟨verdict, found, result⟩ := forall₂_getElem? judged listed
      have accepted := (agree choice (List.mem_of_getElem? listed) verdict result).mpr conforming
      cases verdict with
      | accepted answer => exact ⟨answer, found⟩
      | rejected violations => cases accepted
    · rintro ⟨answer, found⟩
      obtain ⟨choice, listed, result⟩ := forall₂_getElem?_right judged found
      exact ⟨choice, listed, (agree choice (List.mem_of_getElem? listed) _ result).mp rfl⟩
  simp only [accepts]
  constructor
  · intro accepted
    generalize amounts : context.tallied choices value verdicts = verdict at accepted
    cases verdict with
    | accepted answer =>
      obtain ⟨index, found, alone⟩ := Validator.alone_of_tally_verdict untagged lengths amounts
      refine ⟨index, ⟨answer, found⟩, ?_⟩
      rintro other ⟨answer', accepted'⟩
      exact alone other answer' accepted'
    | rejected violations => cases accepted
  · rintro ⟨index, ⟨answer, found⟩, alone⟩
    rw [tallied, Validator.tally_verdict_of_alone value 1 lengths found
      (fun other answer' accepted => alone other ⟨answer', accepted⟩)]
    rfl

/-- A union accepts a value without tags exactly when one option alone conforms. -/
theorem UnionStep.isAccepted_iff (verbatim : context.settings.Verbatim)
    (inward : context.settings.convertFromNetwork = false)
    (sound : ∀ choice ∈ choices, context.Sound choice)
    (complete : ∀ discriminator, Discriminator.find? context.definitions choices =
      some discriminator → discriminator.rest = [])
    (bare : value.Bare) (total : ∀ choice ∈ choices, ∃ verdict, context.Judges choice value verdict)
    (agree : ∀ choice ∈ choices, ∀ verdict, context.Judges choice value verdict →
      (verdict.isAccepted = true ↔ conforms choice value))
    {verdict : Verdict} (step : context.UnionStep context.Judges choices value verdict) :
    verdict.isAccepted = true ↔
      ∃! index : Nat, ∃ choice, choices[index]? = some choice ∧ conforms choice value := by
  -- under a discriminator, what conforms is the option that the field selects
  have selects : ∀ {discriminator}, Discriminator.find? context.definitions choices =
      some discriminator → ∀ {index : Nat} {choice : Schema}, choices[index]? = some choice →
      conforms choice value →
      (value.field discriminator.key).literal?.bind discriminator.variantOf? = some index := by
    intro discriminator decided index choice listed conforming
    have member := List.mem_of_getElem? listed
    obtain ⟨verdict, judged⟩ := total choice member
    have accepted := (agree choice member verdict judged).mpr conforming
    cases verdict with
    | accepted answer =>
      exact selected_of_accepted verbatim inward sound decided (complete _ decided) bare.keyed
        listed judged
    | rejected violations => cases accepted
  cases found : Discriminator.find? context.definitions choices with
  | none =>
    obtain ⟨verdicts, judged, rfl⟩ := step.undecided found
    exact tallied_isAccepted_iff bare.untagged judged agree
  | some discriminator =>
    rcases step.decided inward found with ⟨choice, chosen, judged⟩ | ⟨unchosen, how⟩
    · obtain ⟨index, selected, listed⟩ := Option.bind_eq_some_iff.mp chosen
      rw [agree choice (List.mem_of_getElem? listed) verdict judged]
      constructor
      · intro conforming
        refine ⟨index, ⟨choice, listed, conforming⟩, ?_⟩
        rintro other ⟨choice', listed', conforming'⟩
        exact Option.some.inj ((selects found listed' conforming').symm.trans selected)
      · rintro ⟨other, ⟨choice', listed', conforming⟩, _⟩
        obtain rfl := Option.some.inj ((selects found listed' conforming).symm.trans selected)
        obtain rfl := Option.some.inj (listed'.symm.trans listed)
        exact conforming
    · have refused : verdict.isAccepted = false := by
        rcases how with ⟨_, refused⟩ | ⟨verdicts, judged, rfl⟩
        · exact refused
        · rw [Discriminator.aside, complete _ found] at judged ⊢
          cases judged
          rfl
      rw [refused]
      apply iff_of_false Bool.false_ne_true
      rintro ⟨index, ⟨choice, listed, conforming⟩, _⟩
      rw [Discriminator.chosen?, selects found listed conforming] at unchosen
      cases listed.symm.trans unchosen

/-! ## Whole schemas -/

variable {schema : Schema}

/-- A value conforms to a schema when it conforms to what judges in its place. -/
theorem conforms_shape_iff (grounded : schema.Grounded context.definitions) :
    (context.shape schema).Conforms context.definitions value ↔
      schema.Conforms context.definitions value := by
  unfold shape
  split
  · split
    · exact (Schema.conforms_iff_clause grounded value).symm
    · exact Iff.rfl
  · exact Iff.rfl

/-- Every verdict on a value without tags tells whether the value conforms. -/
theorem isAccepted_iff_conforms (strict : context.settings = .strict)
    (plain : schema.Throughout context.definitions (Schema.Plain context.definitions))
    (grounded : schema.Grounded context.definitions) (bare : value.Throughout Value.Bare)
    {verdict : Verdict} (judged : context.Judges schema value verdict) :
    verdict.isAccepted = true ↔ schema.Conforms context.definitions value := by
  have faithful : context.settings.Faithful := strict ▸ Options.strict_faithful
  obtain ⟨verbatim, inward, lone, keep⟩ := faithful
  refine Schema.grounded_induction (motive := fun schema depth => ∀ value, value.depth ≤ depth →
    value.Throughout Value.Bare → ∀ verdict, context.Judges schema value verdict →
      (verdict.isAccepted = true ↔ schema.Conforms context.definitions value)) ?_
    plain grounded value.depth value (Nat.le_refl _) bare verdict judged
  intro schema depth plain grounded facets smaller value shallow bare verdict judged
  have sound : context.Sound schema := plain.imp (fun node plain => plain.wellFormed _)
  have contents : ∀ part ∈ (context.shape schema).contents, ∀ item ∈ value.contents,
      ∀ verdict, context.Judges part item verdict →
        (verdict.isAccepted = true ↔ part.Conforms context.definitions item) := by
    intro part member item inside
    have less := Nat.lt_of_lt_of_le (Value.depth_lt_of_mem_contents inside) shallow
    exact smaller part (reaches_content member) item.depth less item (Nat.le_refl _)
      (bare.content inside)
  have clause := Schema.conforms_iff_clause (grounded.reached (reaches_shape context schema)) value
  rw [conforms_shape_iff grounded] at clause
  have step := judged_step sound judged
  clear judged
  cases step with
  | leaf leaf judged =>
    rw [Schema.conforms_iff_clause grounded]
    exact leaf_accepts_iff verbatim leaf plain.here.unformatted judged _
  | notItems shape none =>
    rw [clause, shape]
    apply iff_of_false Bool.false_ne_true
    rintro ⟨content, list, tags, rfl, _⟩
    cases none
  | miscounted shape found count =>
    rw [clause, shape]
    apply iff_of_false Bool.false_ne_true
    rintro ⟨content, list, tags, rfl, counted, _⟩
    cases found
    cases count.symm.trans (countReason?_eq_none_iff.mpr counted)
  | items place shape found count judged =>
    rw [clause, shape]
    rw [shape] at contents
    obtain ⟨content, tags, rfl⟩ := Validator.itemsOf?_eq_some lone found
    refine ⟨fun _ => ⟨content, _, tags, rfl, countReason?_eq_none_iff.mp count, ?_⟩, fun _ => rfl⟩
    intro item member
    obtain ⟨answer, _, judged⟩ := forall₂_mem judged member
    exact (contents _ Schema.items_mem_contents item member _ judged).mp rfl
  | itemRefused index shape found count there judged =>
    rw [clause, shape]
    rw [shape] at contents
    have member := List.mem_of_getElem? there
    apply iff_of_false Bool.false_ne_true
    rintro ⟨content, list, tags, rfl, _, conforming⟩
    cases found
    cases (contents _ Schema.items_mem_contents _ member _ judged).mpr (conforming _ member)
  | notObject shape other =>
    rw [clause, shape]
    apply iff_of_false Bool.false_ne_true
    rintro ⟨content, fields, tags, rfl, _⟩
    exact absurd rfl other
  | @fields _ _ _ content fields _ tags place shape object judged =>
    rw [clause, shape]
    subst object
    rw [shape] at contents
    rw [inward, keep, Bool.false_and] at judged
    exact ⟨fun _ => ⟨content, fields, tags, rfl, judged.conform fun body member entry inside =>
      contents body member _ (List.mem_map_of_mem inside)⟩, fun _ => rfl⟩
  | @fieldRefused _ _ _ content fields tags _ shape object judged =>
    rw [clause, shape]
    subst object
    rw [shape] at contents
    rw [inward, keep, Bool.false_and] at judged
    apply iff_of_false Bool.false_ne_true
    rintro ⟨_, _, _, same, conforming⟩
    cases same
    exact absurd conforming (judged.not_conform fun body member entry inside =>
      contents body member _ (List.mem_map_of_mem inside))
  | @union node choices _ shape judged =>
    subst shape
    rw [Schema.conforms_iff_clause grounded]
    have total : ∀ choice ∈ choices, ∃ verdict, context.Judges choice value verdict := by
      intro choice member
      obtain ⟨bound, verdict, ended⟩ := exists_verdict lone (sound.facet member)
        (grounded.facet member) (.run 0) value
      exact ⟨verdict, bound, .run 0, ended bound (Nat.le_refl bound)⟩
    exact judged.isAccepted_iff verbatim inward (fun choice member => sound.facet member)
      (fun discriminator => plain.here.decided _ _ discriminator rfl) bare.here total
      (fun choice member => facets choice member value shallow bare)
  | intersection shape judged => exact absurd shape (plain.here.apart _ _)
  | @named ref inner verdict shape other judged tagged =>
    subst shape tagged
    rw [Schema.conforms_iff_clause grounded]
    have inside := facets _ Schema.definition_mem_facets value shallow bare inner judged
    rw [← show inner.isAccepted = (inner.map _).isAccepted by cases inner <;> rfl]
    exact inside

/-- Under strict options and with enough fuel, a validator returns on every value without
tags, and it accepts exactly the values that conform. -/
theorem accepts_iff_conforms (strict : context.settings = .strict)
    (plain : schema.Throughout context.definitions (Schema.Plain context.definitions))
    (grounded : schema.Grounded context.definitions) (bare : value.Throughout Value.Bare) :
    ∃ bound, ∀ fuel, bound ≤ fuel → ∀ place, ∃ verdict,
      context.attempt fuel schema place value = .ok verdict ∧
        (verdict.isAccepted = true ↔ schema.Conforms context.definitions value) := by
  have faithful : context.settings.Faithful := strict ▸ Options.strict_faithful
  have sound : context.Sound schema := plain.imp (fun node plain => plain.wellFormed _)
  obtain ⟨bound, ends⟩ := settles faithful.lone sound grounded value.depth
  refine ⟨bound, fun fuel enough place => ?_⟩
  obtain ⟨verdict, ended⟩ := ends fuel enough place value (Nat.le_refl _)
  exact ⟨verdict, ended, isAccepted_iff_conforms strict plain grounded bare ⟨fuel, place, ended⟩⟩

end Context

namespace Shapes

/-- With enough fuel, shapes are accepted exactly when they conform. -/
theorem drawing_accepted_iff :
    let context : Context := ⟨definitions, fun _ => none, .strict⟩
    ∃ bound, ∀ fuel, bound ≤ fuel → ∀ place, ∃ verdict,
      context.attempt fuel shape place drawing = .ok verdict ∧
        (verdict.isAccepted = true ↔ shape.Conforms definitions drawing) := by
  intro context
  have inside : shape ∈ nodes := .head _
  have plain : shape.Throughout context.definitions (Schema.Plain context.definitions) := by
    have decided : ∀ (number : Nat) (choices : List Schema) (discriminator : Discriminator),
        10 = number → variants = choices →
        Discriminator.find? definitions choices = some discriminator → discriminator.rest = [] := by
      rintro _ _ discriminator rfl rfl found
      obtain rfl := Option.some.inj (find?_variants.symm.trans found)
      rfl
    refine throughout ?_ inside
    simpa [context, nodes, Schema.plain_iff, Schema.DistinctNames, shape, circle, group,
      Property.names] using decided
  have bare : drawing.Throughout Value.Bare := by
    simp [drawing, Value.bare_iff, Value.Keyed, Fields.Distinct, Fields.keys, Value.tags,
      Value.tags?]
  exact Context.accepts_iff_conforms rfl plain (grounded inside) bare

end Shapes

end Conform
