import Conform.Proofs.Wire.Objects

/-!
# Answers are decoded further

Whatever a panel has decoded of a value, a schema that it calls decodes further: its answer
still says what the value said, and lies where the tags say. This goes by the steps of a
judgement, one case for each kind of schema.
-/

namespace Conform

open Validator (readKey isTaken forbiddenKeys FieldsStep Outcome)

namespace Context

variable {context : Context} {panel : Panel} {value value' answer : Value} {schema : Schema}

/-! ## Objects -/

section

variable {content content' place : Identity} {fields fields' answers : Fields Value} {tags : Tags}
  {node : Nat} {properties : List (Property Schema)} {additional : Additional Schema}
  {judges : Schema → Value → Verdict → Prop}

/-- No key that is forbidden is answered, when renamed properties have other names. -/
theorem forbidden_answer {wire : Bool}
    (free : ∀ property ∈ properties, property.Renamed → property.name ∉ forbiddenKeys)
    (step : FieldsStep judges wire false properties additional fields answers) {key : String}
    (forbidden : key ∈ forbiddenKeys) : key ∉ fields.keys ∧ key ∉ answers.keys := by
  have absent : key ∉ fields.keys := by
    intro member
    obtain ⟨value, inside⟩ := Fields.exists_mem_of_mem_keys member
    obtain ⟨_, _, permitted, _, _⟩ := step
    exact permitted _ inside forbidden
  refine ⟨absent, fun member => ?_⟩
  obtain ⟨answer, inside⟩ := Fields.exists_mem_of_mem_keys member
  rcases step.origin inside with ⟨property, listed, rfl, there, _⟩ | ⟨value, other, _⟩
  · have plain : ¬ property.Renamed := fun renamed => free property listed renamed forbidden
    rw [Validator.readKey_of_plain plain] at there
    exact absent (Fields.mem_keys (Fields.mem_of_lookup there))
  · exact absent (Fields.mem_keys (Validator.mem_otherFields.mp other).1)

/-- An object type leaves its tag, and with it what a panel may leave. -/
theorem Marked.object (marked : context.Marked panel value tags)
    (called : context.Calls panel value schema)
    (shaped : context.shape schema = .object node properties additional) :
    context.Marked (panel.add schema) value (tags.insert schema) := by
  have more : tags ⊆ tags.insert schema := fun _ member => (Tags.mem_insert _ _ _).mpr (.inl member)
  have own : schema ∈ tags.insert schema := (Tags.mem_insert _ _ _).mpr (.inr rfl)
  refine ⟨fun tag member => ?_, fun choices wire unconcealed judge member => ?_,
    fun tag member levels candidate inside => ?_⟩
  · rw [calls_add called]
    rcases (Tags.mem_insert _ _ _).mp member with old | rfl
    · exact marked.called tag old
    · exact called
  · rcases (Tags.mem_insert _ _ _).mp member with old | rfl
    · intro node properties additional shaped property listed renamed read
      obtain ⟨choice, inside, left⟩ := marked.shown choices wire
        (fun judge listed => unconcealed judge (.inl listed)) judge old node properties additional
        shaped property listed renamed read
      exact ⟨choice, inside, more left⟩
    · intro node properties additional shaped property listed renamed read
      refine ⟨judge, by_contra fun unmarked => ?_, own⟩
      exact unconcealed judge (.inr rfl) (.renames shaped listed renamed read unmarked)
  · rcases (Tags.mem_insert _ _ _).mp member with old | rfl
    · exact (marked.told tag old levels candidate inside).more more
    · exact tells_of_shape shaped own inside

/-- An object type decodes an object further, when what judges its fields does. -/
theorem Decodes.object_answered (called : context.Calls panel value schema)
    (shaped : context.shape schema = .object node properties additional)
    (names : (Property.names properties).Nodup)
    (compatible : value.kind = .object → context.CompatibleOn panel value)
    (decodes : context.Decodes panel value (.object content' fields' tags))
    (step : FieldsStep judges (!tags.has schema) false properties additional fields' answers)
    (bodies : ∀ content fields, value = .object content fields [] → ∀ inner outer key body answer,
      context.Lies (context.Calls panel value) tags inner outer key →
      Schema.bodyAt? properties additional inner = some body →
      judges body (fields'.lookup key) (.accepted answer) →
      context.Decodes (context.panelAt (context.Calls panel value) inner)
        (Fields.lookup outer fields) (fields'.lookup key) →
      context.Decodes (context.panelAt (context.Calls panel value) inner)
        (Fields.lookup outer fields) answer) :
    context.Decodes (panel.add schema) value (.object place answers (tags.insert schema)) := by
  cases decodes with
  | scalar plain => cases plain
  | @object _ content _ fields _ _ distinct forbidden marked covered each =>
  have compatible := compatible rfl
  have same := calls_add called
  refine .object (step.distinct names distinct) (fun key forbids => ?_)
    (marked.object called shaped) (fun key there => ?_) (fun inner outer key lies => ?_)
  · have absent := forbidden_answer (fun property listed renamed =>
      compatible.permitted _ _ _ _ called shaped property listed renamed) step forbids
    rw [forbidden key forbids]
    exact iff_of_false absent.1 absent.2
  · rw [same]
    refine .inl (covered_answer called shaped distinct (fun key untaken present => ?_) step there)
    exact (covered key present).resolve_right fun hidden =>
      Bool.eq_false_iff.mp untaken (hidden.2.taken called shaped _)
  · rw [same] at lies ⊢
    obtain ⟨before, lay, outcome⟩ := lies.answered called shaped distinct names
      (fun judge _ _ _ called' shaped' =>
        compatible.apart _ _ _ _ _ _ _ _ called' called shaped' shaped) step
    have said := each _ _ _ lay
    generalize Fields.lookup key answers = answer at outcome
    cases outcome with
    | absent missing none => exact .missing (said.isUndefined_eq.trans missing) none
    | kept none => exact said
    | judged some there judged => exact bodies _ _ rfl _ _ _ _ _ lay some judged said

end

/-! ## Names -/

/-- What a name stands for leaves less than the name. -/
theorem Marked.named {ref : NamedRef} {tags : Tags}
    (other : (context.definitions ref).isContainer = false)
    (marked : context.Marked (panel.add (context.definitions ref)) value tags)
    (called : context.Calls panel value (.named ref))
    (tells : ∀ levels, ∀ candidate ∈
      (context.definitions ref).candidatesWithin context.definitions levels,
      context.Tells tags candidate) :
    context.Marked (panel.add (.named ref)) value (tags.insert (.named ref)) := by
  have handed : context.definitions ref ∈ context.delegates value (.named ref) := by
    simp [delegates, other]
  have more : tags ⊆ tags.insert (.named ref) := fun _ member =>
    (Tags.mem_insert _ _ _).mpr (.inl member)
  have own : .named ref ∈ tags.insert (.named ref) := (Tags.mem_insert _ _ _).mpr (.inr rfl)
  refine ⟨fun tag member => ?_, fun choices wire unconcealed judge member => ?_,
    fun tag member levels candidate inside => ?_⟩
  · rw [calls_add called]
    rcases (Tags.mem_insert _ _ _).mp member with old | rfl
    · have called' := marked.called tag old
      rwa [calls_add (called.delegate handed)] at called'
    · exact called
  · intro node properties additional shaped property listed renamed read
    rcases (Tags.mem_insert _ _ _).mp member with old | rfl
    · by_cases choice : .named ref ∈ choices
      · exact ⟨_, choice, own⟩
      · obtain ⟨choice, inside, left⟩ := marked.shown choices wire (fun judge listed conceals => by
          rcases listed with listed | rfl
          · exact unconcealed judge (.inl listed) conceals
          · exact unconcealed _ (.inr rfl) (.delegate handed conceals fun _ _ => choice))
          judge old node properties additional shaped property listed renamed read
        exact ⟨choice, inside, more left⟩
    · rw [shape, other] at shaped
      cases shaped
  · rcases (Tags.mem_insert _ _ _).mp member with old | rfl
    · exact (marked.told tag old levels candidate inside).more more
    · exact (tells levels candidate (Schema.mem_candidatesWithin_definition inside)).more more

/-- What a name stands for decodes for the name. -/
theorem Decodes.named {ref : NamedRef}
    (other : (context.definitions ref).isContainer = false)
    (called : context.Calls panel value (.named ref))
    (tells : ∀ levels, ∀ candidate ∈
      (context.definitions ref).candidatesWithin context.definitions levels,
      context.Tells answer.tags candidate)
    (decodes : context.Decodes (panel.add (context.definitions ref)) value answer) :
    context.Decodes (panel.add (.named ref)) value (answer.withTags [.named ref]) := by
  have handed : context.definitions ref ∈ context.delegates value (.named ref) := by
    simp [delegates, other]
  have same : context.Calls (panel.add (.named ref)) value =
      context.Calls (panel.add (context.definitions ref)) value :=
    (calls_add called).trans (calls_add (called.delegate handed)).symm
  cases decodes with
  | scalar plain =>
    have untouched : value.withTags [.named ref] = value := by
      cases value <;> first | rfl | cases plain
    rw [untouched]
    exact .scalar plain
  | array lengths each => exact .array lengths (by rw [same]; exact each)
  | object distinct forbidden marked covered each =>
    refine .object distinct forbidden (marked.named other called tells) ?_ ?_
    · intro key there
      rw [same]
      refine (covered key there).imp_left ?_
      rintro ⟨inner, outer, lies⟩
      exact ⟨inner, outer, (Lies.of_named other).mpr lies⟩
    · intro inner outer key lies
      rw [same] at lies ⊢
      exact each inner outer key ((Lies.of_named other).mp lies)

/-! ## Components -/

section

variable {node : Nat} {components : List Schema}
  (called : context.Calls panel value (.intersection node components))

include called

/-- Before its components judge, an intersection has decoded as much as the panel. -/
theorem Decodes.join (decodes : context.Decodes panel value value') :
    context.Decodes (Panel.join panel components) value value' :=
  decodes.of_panel (calls_join called)
    (fun _ _ unconcealed judge member => unconcealed judge (.inl member))

/-- After its components have judged, an intersection has decoded what they have. -/
theorem Decodes.joined (decodes : context.Decodes (Panel.join panel components) value value') :
    context.Decodes (panel.add (.intersection node components)) value value' := by
  refine decodes.of_panel ((calls_add called).trans (calls_join called).symm) ?_
  rintro choices wire unconcealed judge (member | member) conceals
  · exact unconcealed judge (.inl member) conceals
  · exact unconcealed _ (.inr rfl) (.delegate member conceals fun _ same => nomatch same)

end

/-! ## Every schema -/

variable (network : context.settings = .fromNetwork)

include network

/-- What a panel has decoded, a schema that it calls decodes further. -/
theorem answer_decodes (sound : context.Sound schema)
    (judged : context.Judges schema value' (.accepted answer))
    (callee : context.CalledCompatibly panel value schema)
    (decodes : context.Decodes panel value value') :
    context.Decodes (panel.add schema) value answer := by
  obtain ⟨verbatim, wired, lone, keep⟩ := Options.wired_of_network network
  revert panel value
  refine accepted_induction (motive := fun schema value' answer => ∀ {panel} {value},
    context.CalledCompatibly panel value schema → context.Decodes panel value value' →
    context.Decodes (panel.add schema) value answer) ?_ sound sound judged
  clear sound judged
  intro schema value' answer sound step panel value callee decodes
  have called := callee.called
  cases step with
  | leaf leaf judged =>
    rcases leaf_answer leaf sound.here.knownFormats judged with rfl | ⟨_, loose⟩
    · exact decodes.add called
    · exact absurd verbatim loose
  | @items node items least most list answers place shape found count judged =>
    obtain ⟨content', tags', rfl⟩ := Validator.itemsOf?_eq_some lone found
    cases found
    cases decodes with
    | scalar plain => cases plain
    | @array _ content _ items' _ tags _ lengths each =>
    obtain ⟨lengths', judged⟩ := List.forall₂_iff_get.mp judged
    refine .array (lengths.trans lengths') (fun index inside inside' => ?_)
    have within : index < list.length := lengths' ▸ inside'
    obtain ⟨_, _, further⟩ := judged index within inside'
    have decoded := further _ rfl (callee.item shape (List.getElem_mem inside))
      (each index inside within)
    rw [Panel.add_of_own ⟨schema, node, least, most, called, shape⟩] at decoded
    rw [calls_add called]
    exact decoded
  | @fields node properties additional content' fields' answers tags place shape object judged =>
    subst object
    have names : (context.shape schema).DistinctNames :=
      (sound.reached (reaches_shape context schema)).here.distinctNames
    rw [shape] at names
    rw [wired, keep, Bool.true_and] at judged
    refine Decodes.object_answered called shape names callee.compatibly.compatible decodes judged ?_
    rintro content fields rfl inner outer key body answer lies some ⟨_, _, further⟩ said
    have decoded := further answer rfl (callee.field shape lies some) said
    rwa [Panel.add_of_own ⟨schema, node, properties, additional, called, shape, some⟩] at decoded
  | @union node choices _ shape judged =>
    subst shape
    obtain ⟨choice, member, _, _, further⟩ := UnionStep.accepted_delegate
      (fun discriminator found => decodes.selection?_eq wired callee found) judged
    have decoded := further answer rfl (callee.delegate member) decodes
    refine decoded.of_panel ((calls_add called).trans (calls_add (called.delegate member)).symm) ?_
    rintro alternatives wire open' judge (listed | rfl) conceals
    · exact open' judge (.inl listed) conceals
    · exact open' _ (.inr rfl) (.delegate member conceals fun _ same => nomatch same)
  | @intersection node components _ shape judged =>
    subst shape
    refine Decodes.joined called (judged.preserves (decodes.join called) (List.nil_subset _) ?_)
    rintro component member item answer said ⟨inner, judged, further⟩
    have decoded := further answer rfl (callee.component member) said
    rw [Panel.add_of_own (.inr member)] at decoded
    exact ⟨decoded, answer_grows verbatim inner judged⟩
  | @named ref inner verdict shape other judged tagged =>
    subst shape
    obtain ⟨first, rfl, rfl⟩ := accepted_of_map tagged
    have handed : context.definitions ref ∈ context.delegates value (.named ref) := by
      simp [delegates, other]
    refine Decodes.named other called (fun levels candidate inside =>
      answer_tells verbatim judged.1 judged.2.1 inside) ?_
    exact judged.2.2 first rfl (callee.delegate handed) decodes

end Context

end Conform
