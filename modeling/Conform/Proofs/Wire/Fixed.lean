import Conform.Proofs.Attempt.Equality
import Conform.Proofs.Revalidation.Agreement
import Conform.Proofs.Revalidation.Ambiguity
import Conform.Proofs.Wire.Reselection

/-!
# Keeping what was answered

What took part when a value was answered judges what its own answer became. Its tags are there, so
it reads inner names and moves nothing, and what it asks of each part was asked before. Therefore
it answers with equal data under equal tags, unless a union among those that took part now finds
several options that match.
-/

namespace Conform

open Validator (readKey isTaken otherFields forbiddenKeys FieldsStep FieldsRefused)

namespace Context

variable (context : Context)

/-- The schema accepts the value, if it judges it at all, with equal data under equal tags. -/
def Fixes (schema : Schema) (value : Value) : Prop :=
  ∀ verdict, context.Judges schema value verdict →
    ∃ again, verdict = .accepted again ∧ again.Equates Eq value

/-- An object that an object type has judged has nothing under a forbidden key. -/
def LacksForbiddenKeys (value : Value) : Prop :=
  ∀ judge ∈ value.tags, ∀ node properties additional,
    context.shape judge = .object node properties additional →
    ∀ key ∈ forbiddenKeys, ∀ fields, value.fields? = some fields → key ∉ fields.keys

/-- A union that took part finds that several options match what became of its part. -/
def SomeUnionAmbiguous (whole : Schema) (value answer : Value) : Prop :=
  ∃ node choices stage result final numbers,
    context.Traced whole value answer (.union node choices) stage result final ∧
      (context.Judges (.union node choices) final (.refuse (.manyOptions numbers)) ∨
        context.Judges (.union node choices) final (.refuse (.manyPreferred numbers)))

variable {context} {whole schema : Schema} {value answer stage result final : Value}

/-- What a schema fixes, it fixes under another guise that is equal under equal tags. -/
theorem Fixes.congr {item : Value} {verdict : Verdict}
    (lone : context.settings.allowConvertForArrayType = false) (sound : context.Sound schema)
    (grounded : schema.Grounded context.definitions) (fixes : context.Fixes schema final)
    (same : item.Equates Eq final) (judged : context.Judges schema item verdict) :
    ∃ again, verdict = .accepted again ∧ again.Equates Eq final := by
  obtain ⟨bound, verdict', ended⟩ := exists_verdict lone sound grounded (.run 0) final
  have own : context.Judges schema final verdict' := ⟨bound, .run 0, ended bound (Nat.le_refl _)⟩
  obtain ⟨again, rfl, kept⟩ := fixes _ own
  cases judges_related Value.congruence_equates respects_equates sound same judged own with
  | accepted alike => exact ⟨_, rfl, alike.trans (fun _ _ _ => Eq.trans) kept⟩

/-- Components that all fix a value pass on what equals it. -/
theorem fixes_chain {components : List Schema} {item : Value} {tags : Tags} {verdict : Verdict}
    (lone : context.settings.allowConvertForArrayType = false)
    (verbatim : context.settings.Verbatim)
    (each : ∀ component ∈ components, context.Sound component ∧
      component.Grounded context.definitions ∧ context.Fixes component final)
    (same : item.Equates Eq final) (known : tags ⊆ item.tags)
    (chain : Validator.Chain context.Judges components item tags verdict) :
    ∃ again, verdict = .accepted again ∧ again.Equates Eq final := by
  induction components generalizing item tags with
  | nil =>
    cases chain
    rw [Value.withTags_of_subset (fun own found => by simpa [Value.tags, found] using known)]
    exact ⟨item, rfl, same⟩
  | cons component rest ih =>
    obtain ⟨⟨sound, grounded, fixes⟩, others⟩ := List.forall_mem_cons.mp each
    cases chain with
    | next judged further =>
      obtain ⟨_, accepted, kept⟩ := fixes.congr lone sound grounded same judged
      cases accepted
      refine ih others kept (fun tag member => ?_) further
      rcases (Tags.mem_merge _ _ _).mp member with old | new
      · exact answer_grows verbatim sound judged (known old)
      · exact new
    | refused number judged =>
      obtain ⟨_, accepted, _⟩ := fixes.congr lone sound grounded same judged
      cases accepted

/-- Unions that discriminators decide in full never find that several options match. -/
theorem not_someUnionAmbiguous_of_decisive (sound : context.Sound whole)
    (decisive : whole.Throughout context.definitions (Schema.Decisive context.definitions)) :
    ¬ context.SomeUnionAmbiguous whole value answer := by
  rintro ⟨node, choices, stage, result, final, numbers, traced, many⟩
  have clear : ∀ verdict, context.Judges (.union node choices) final verdict → verdict.Clear :=
    fun _ => judged_clear (sound.reached traced.reaches) (decisive.reached traced.reaches)
  rcases many with judged | judged
  · exact clear _ judged _ rfl ⟨_, .head _, .options [] numbers⟩
  · exact clear _ judged _ rfl ⟨_, .head _, .preferred [] numbers⟩

/-! ## Unions -/

/-- Options accept the value that one of them fixes, unless several match. -/
theorem tallied_fixes {options : List Schema} {verdicts : List Verdict} {choice : Schema}
    (judged : List.Forall₂ (fun option verdict => context.Judges option final verdict) options
      verdicts)
    (member : choice ∈ options) (fixes : context.Fixes choice final)
    (tagged : ∀ option ∈ options, option ∈ final.tags → context.Fixes option final)
    (clear : ∀ numbers, context.tallied options final verdicts ≠ .refuse (.manyOptions numbers) ∧
      context.tallied options final verdicts ≠ .refuse (.manyPreferred numbers)) :
    ∃ again, context.tallied options final verdicts = .accepted again ∧
      again.Equates Eq final := by
  have lengths : (options.map (Schema.validator context.definitions)).length = verdicts.length := by
    rw [List.length_map, judged.length_eq]
  have answers := Validator.tally_answers final 1 lengths
  obtain ⟨verdict, listed, result⟩ := forall₂_mem judged member
  obtain ⟨again, rfl, same⟩ := fixes verdict result
  have among : again ∈ verdicts.filterMap Verdict.value? :=
    List.mem_filterMap.mpr ⟨_, listed, rfl⟩
  have inside := answers.mem_iff.mpr among
  cases amounts : context.tallied options final verdicts with
  | rejected violations =>
    rcases Validator.Trial.verdict_rejected amounts with
      ⟨none, _⟩ | ⟨_, ⟨numbers, rfl⟩ | ⟨numbers, rfl⟩⟩
    · rw [none] at inside
      cases inside
    · exact absurd amounts (clear numbers).2
    · exact absurd amounts (clear numbers).1
  | accepted other =>
    refine ⟨other, rfl, ?_⟩
    rcases Validator.Trial.verdict_accepted amounts with ⟨number, only⟩ | alone
    · -- a preferred option has left its tag, so it took part as well
      obtain ⟨index, validator, found, accepted, preferred⟩ :=
        Validator.mem_preferred_tally (only ▸ List.mem_singleton.mpr rfl)
      rw [List.getElem?_map, Option.map_eq_some_iff] at found
      obtain ⟨option, found, rfl⟩ := found
      unfold Validator.isPreferred at preferred
      split at preferred
      · next ref named =>
        obtain rfl := Schema.eq_named_of_name? named
        rw [Bool.and_eq_true] at preferred
        obtain ⟨verdict, held, judged⟩ := forall₂_getElem? judged found
        obtain rfl := Option.some.inj (held.symm.trans accepted)
        obtain ⟨_, same, kept⟩ := tagged _ (List.mem_of_getElem? found)
          ((Tags.has_eq_true_iff _ _).mp preferred.1) _ judged
        cases same
        exact kept
      · cases preferred
    · rw [alone, List.mem_singleton] at inside
      exact inside ▸ same

section

variable (network : context.settings = .fromNetwork) (sound : context.Sound whole)
  (accepted : context.Judges whole value (.accepted answer))
  (converted : value.Throughout context.Converted)
  (apart : answer.Throughout context.TypesApart)

namespace Traced

include network sound accepted converted apart in
/-- A union that took part fixes what became of its part when the options do, unless several
match. -/
theorem fixes_union {node : Nat} {choices : List Schema}
    (traced : context.Traced whole value answer (.union node choices) stage result final)
    (selectsAgain : context.SelectsAgain choices stage final)
    (clear : ¬ context.SomeUnionAmbiguous whole value answer)
    (options : ∀ choice ∈ choices, ∀ stage result,
      context.Traced whole value answer choice stage result final → context.Fixes choice final)
    (signed : ∀ tag ∈ final.tags, ∃ stage result,
      context.Traced whole value answer tag stage result final) :
    context.Fixes (.union node choices) final := by
  intro verdict judged
  have step := (judged_step (sound.reached traced.reaches) judged).by_options
  have selects : ∀ discriminator,
      Discriminator.find? context.definitions choices = some discriminator →
      context.selection? discriminator choices final =
        context.selection? discriminator choices stage := fun discriminator found =>
    traced.selection?_eq network sound accepted converted apart found selectsAgain
  obtain ⟨choice, handed, chosen⟩ := traced.of_union sound accepted
  have fixes := options choice (delegate_facet handed) _ _ chosen
  rcases union_delegates stage node choices with ⟨only, handed', selected⟩ | tried
  · obtain rfl := List.mem_singleton.mp (handed' ▸ handed)
    exact fixes verdict (selected selects step)
  · rcases tried selects step with ⟨none, _⟩ | ⟨verdicts, each, rfl⟩
    · rw [none] at handed
      cases handed
    · refine tallied_fixes each handed fixes (fun option listed tagged => ?_) (fun numbers => ?_)
      · obtain ⟨_, _, traced⟩ := signed option tagged
        exact options option (delegate_facet listed) _ _ traced
      · exact ⟨fun many => clear ⟨_, _, _, _, _, numbers, traced, .inl (many ▸ judged)⟩,
          fun many => clear ⟨_, _, _, _, _, numbers, traced, .inr (many ▸ judged)⟩⟩

/-! ## Arrays and objects -/

include network sound accepted converted apart in
/-- An array type that took part fixes what became of its part when it fixes the items. -/
theorem fixes_array {node : Nat} {items : Schema} {least most : Option Nat}
    (traced : context.Traced whole value answer schema stage result final)
    (shaped : context.shape schema = .array node items least most)
    (further : ∀ part ∈ final.contents, ∀ stage result,
      context.Traced whole value answer items stage result part → context.Fixes items part) :
    context.Fixes schema final := by
  have lone := (Options.wired_of_network network).lone
  have own := sound.reached traced.reaches
  have becomes := traced.becomes network sound converted apart
  obtain ⟨place, list, answers, found, count, rfl, each⟩ :=
    (judged_step own (traced.judged accepted)).array shaped
  obtain ⟨content, tags, rfl⟩ := Validator.itemsOf?_eq_some lone found
  cases found
  cases becomes with
  | scalar plain => cases plain
  | @array _ _ _ finals _ tags' more lengths _ =>
  have same := each.length_eq
  have fixes : ∀ (index : Nat) (inside : index < finals.length),
      context.Fixes items finals[index] := by
    intro index inside
    have within : index < answers.length := lengths ▸ inside
    have there := List.getElem?_eq_getElem within
    obtain ⟨item, held, judged⟩ := forall₂_getElem?_right each there
    exact further _ (List.getElem_mem inside) _ _
      (.item traced shaped held there (List.getElem?_eq_getElem inside) judged)
  intro verdict judged
  cases verdict with
  | rejected violations =>
    rcases (judged_step own judged).array_refused shaped with
      none | ⟨_, found, ⟨reason, miscounted⟩ | ⟨index, item, causes, member, refused, _⟩⟩
    · cases none
    · cases found
      rw [← lengths, ← same, count] at miscounted
      cases miscounted
    · cases found
      obtain ⟨position, inside, rfl⟩ := List.getElem_of_mem member
      obtain ⟨_, accepts, _⟩ := fixes position inside _ refused
      cases accepts
  | accepted again =>
    obtain ⟨place', list', answers', found, _, rfl, each'⟩ :=
      (judged_step own judged).array shaped
    cases found
    obtain ⟨lengths', each'⟩ := List.forall₂_iff_get.mp each'
    refine ⟨_, rfl, .array ?_ lengths'.symm (fun index inside inside' => ?_)⟩
    · refine Tags.merge_of_subset (fun tag tagged => more ?_)
      exact (Tags.mem_merge _ _ _).mpr (.inr tagged)
    · obtain ⟨_, same, kept⟩ := fixes index inside' _ (each' index inside' inside)
      cases same
      exact kept

section

variable {content place place' : Identity} {fields answers finals : Fields Value}
  {tags tags' : Tags} {node : Nat} {properties : List (Property Schema)}
  {additional : Additional Schema}
  (traced : context.Traced whole value answer schema (.object content fields tags)
    (.object place answers (tags.insert schema)) (.object place' finals tags'))
  (shaped : context.shape schema = .object node properties additional)
  (step : FieldsStep context.Judges (!tags.has schema) false properties additional fields answers)

include network sound accepted converted apart traced shaped step

/-- An object type that took part has judged what became of each field that it judges again. -/
theorem body_at (names : (Property.names properties).Nodup) {key : String}
    (there : (finals.lookup key).isUndefined = false) {body : Schema}
    (some : Schema.bodyAt? properties additional key = some body) :
    ∃ stage result, context.Traced whole value answer body stage result (finals.lookup key) := by
  have becomes := traced.becomes network sound converted apart
  have distinct := (traced.stage_converted network sound converted).here.keyed
  have apart' := (traced.throughout apart typesApart_undefined).here
  have settled := traced.throughout (answer_converted network sound converted accepted) trivial
  obtain ⟨outer, lies⟩ := ConvertedFields.covered settled.here there
  obtain ⟨after, lay⟩ := lies.under (tags.insert schema)
  cases becomes with
  | scalar plain => cases plain
  | object more each =>
  have tagged := more ((Tags.mem_insert _ _ _).mpr (.inr rfl))
  have further := each _ _ _ lay
  obtain ⟨before, lay', outcome⟩ :=
    lay.answered tagged shaped distinct names (apart'.apart tagged shaped) step
  generalize same : Fields.lookup after answers = answer at outcome further
  cases outcome with
  | absent missing none => cases none.symm.trans (further.isUndefined_eq.trans there)
  | kept none => cases none.symm.trans some
  | judged some' there judged =>
    cases some.symm.trans some'
    subst same
    exact ⟨_, _, .field traced shaped some lay' lay there judged⟩

/-- What an object type requires is there when it judges again. -/
theorem required_there {property : Property Schema} (listed : property ∈ properties)
    (required : property.required = true) :
    (finals.lookup property.name).isUndefined = false := by
  have becomes := traced.stage_becomes network sound accepted converted apart
  have kept := (traced.becomes network sound converted apart).tags_subset
  cases becomes with
  | scalar plain => cases plain
  | object more each =>
  have tagged := kept ((Tags.mem_insert _ _ _).mpr (.inr rfl))
  rw [← (each _ _ _ (.declared tagged shaped listed)).isUndefined_eq]
  obtain ⟨found, extras, _, declared, _⟩ := step
  have step := declared property listed
  generalize found property.name = outcome at step
  cases step with
  | absent _ optional => cases optional.symm.trans required
  | present there _ => exact there

/-- An object type that denied other fields finds none when it judges again. -/
theorem not_denied {key : String} (there : (finals.lookup key).isUndefined = false)
    (untaken : isTaken false properties key = false) : additional ≠ .deny := by
  have becomes := traced.becomes network sound converted apart
  have apart' := (traced.throughout apart typesApart_undefined).here
  have settled := traced.throughout (answer_converted network sound converted accepted) trivial
  obtain ⟨outer, lies⟩ := ConvertedFields.covered settled.here there
  cases becomes with
  | scalar plain => cases plain
  | object more each =>
  have tagged := more ((Tags.mem_insert _ _ _).mpr (.inr rfl))
  have own : (!Tags.has tags' schema) = false := by
    rw [(Tags.has_eq_true_iff _ _).mpr tagged]
    rfl
  have own' : (!(tags.insert schema).has schema) = false := by
    rw [(Tags.has_eq_true_iff _ _).mpr ((Tags.mem_insert _ _ _).mpr (.inr rfl))]
    rfl
  obtain ⟨after, lay, free⟩ := lies.elsewhere tagged shaped (apart'.apart tagged shaped)
    (own ▸ untaken) (tags.insert schema)
  rw [own'] at free
  have present := (each _ _ _ lay).isUndefined_eq.trans there
  rintro rfl
  rcases step.origin (Fields.mem_of_lookup present) with
    ⟨property, listed, named, _⟩ | ⟨_, _, ⟨keep, _⟩ | ⟨_, typed, _⟩⟩
  · cases free.symm.trans (Validator.isTaken_of_mem listed (.inr named))
  · cases keep
  · cases typed

end

include network sound accepted converted apart in
/-- An object type that took part fixes what became of its part when it fixes the fields. -/
theorem fixes_object {node : Nat} {properties : List (Property Schema)}
    {additional : Additional Schema}
    (traced : context.Traced whole value answer schema stage result final)
    (shaped : context.shape schema = .object node properties additional)
    (lacking : context.LacksForbiddenKeys final)
    (further : ∀ body ∈ properties.map Property.body ++ additional.bodies,
      ∀ part ∈ final.contents, ∀ stage result,
      context.Traced whole value answer body stage result part → context.Fixes body part) :
    context.Fixes schema final := by
  obtain ⟨verbatim, wired, lone, keep⟩ := Options.wired_of_network network
  have own := sound.reached traced.reaches
  have names : (context.shape schema).DistinctNames :=
    (own.reached (reaches_shape context schema)).here.distinctNames
  rw [shaped] at names
  have becomes := traced.becomes network sound converted apart
  have settled := traced.throughout (answer_converted network sound converted accepted) trivial
  obtain ⟨place, content, fields, answers, tags, rfl, rfl, step⟩ :=
    (judged_step own (traced.judged accepted)).object shaped
  rw [wired, keep, Bool.true_and] at step
  cases becomes with
  | scalar plain => cases plain
  | @object _ place' _ finals _ tags' more _ =>
  have tagged := more ((Tags.mem_insert _ _ _).mpr (.inr rfl))
  have known : (!Tags.has tags' schema) = false := by
    rw [(Tags.has_eq_true_iff _ _).mpr tagged]
    rfl
  have held : context.ConvertedFields finals tags' := settled.here
  have fixes : ∀ key body, (finals.lookup key).isUndefined = false →
      Schema.bodyAt? properties additional key = some body →
      context.Fixes body (finals.lookup key) := by
    intro key body there some
    obtain ⟨_, _, inner⟩ :=
      traced.body_at network sound accepted converted apart shaped step names there some
    exact further body (Schema.mem_of_bodyAt? some) _
      (List.mem_map_of_mem (f := Prod.snd) (Fields.mem_of_lookup there)) _ _ inner
  intro verdict judged
  cases verdict with
  | rejected violations =>
    exfalso
    rcases (judged_step own judged).object_refused shaped with other | ⟨_, _, _, same, refused⟩
    · exact other rfl
    cases same
    rw [wired, keep, Bool.true_and, known] at refused
    cases refused with
    | forbidden member among =>
      exact lacking schema tagged _ _ _ shaped _ among _ rfl (Fields.mem_keys member)
    | missing listed absent required =>
      rw [Validator.readKey_false] at absent
      cases absent.symm.trans (traced.required_there network sound accepted converted apart shaped
        step listed required)
    | property listed present refused =>
      rw [Validator.readKey_false] at present refused
      obtain ⟨_, accepts, _⟩ :=
        fixes _ _ present (Schema.bodyAt?_declared names listed) _ refused
      cases accepts
    | others refused =>
      cases refused with
      | unexpected closed _ member =>
        obtain ⟨given, untaken, there⟩ := Validator.mem_otherFields.mp member
        rw [← Fields.lookup_of_mem held.distinct given] at there
        exact traced.not_denied network sound accepted converted apart shaped step there
          untaken closed
      | judged typed member refused =>
        obtain ⟨given, untaken, there⟩ := Validator.mem_otherFields.mp member
        rw [← Fields.lookup_of_mem held.distinct given] at there refused
        subst typed
        obtain ⟨_, accepts, _⟩ := fixes _ _ there (Schema.bodyAt?_other fun property listed same =>
          Bool.eq_false_iff.mp untaken (Validator.isTaken_of_mem listed (.inr same))) _ refused
        cases accepts
  | accepted again =>
    obtain ⟨again', _, _, answers', _, same, rfl, step'⟩ :=
      (judged_step own judged).object shaped
    cases same
    rw [wired, keep, Bool.true_and] at step'
    have held' := held.answered shaped names (fun body member _ _ judged =>
      answer_isUndefined verbatim (own.reached (reaches_content (by rw [shaped]; exact member)))
        judged) step'
    rw [known] at step'
    have each : ∀ key : String,
        (Fields.lookup key answers').Equates Eq (Fields.lookup key finals) := by
      intro key
      have outcome := step'.outcome names held.distinct key
      generalize Fields.lookup key answers' = answer at outcome
      cases outcome with
      | absent missing none =>
        rw [Value.eq_undefined missing, Value.eq_undefined none]
        exact .undefined
      | kept =>
        have keyed : (Value.object place' finals tags').Throughout Value.Keyed :=
          fun part reached => (settled part reached).keyed
        exact .refl (fun _ => rfl) (keyed.lookup trivial key)
      | judged some there judged =>
        obtain ⟨_, same, kept⟩ := fixes key _ there some _ judged
        cases same
        exact kept
    have stays : tags'.insert schema = tags' := by
      rw [Tags.insert, if_pos ((Tags.has_eq_true_iff _ _).mpr tagged)]
    have filled := held.filled schema tagged _ _ _ shaped
    have filled' := held'.filled schema ((Tags.mem_insert _ _ _).mpr (.inr rfl)) _ _ _ shaped
    refine ⟨_, rfl, .object stays held'.distinct held.distinct (fun key => ?_) each⟩
    rw [Value.mem_keys_iff held'.distinct filled', Value.mem_keys_iff held.distinct filled,
      Value.congruence_equates.isUndefined_eq (each key)]

/-! ## Every other schema -/

include network sound accepted converted apart

/-- A leaf that took part fixes what became of its stage. -/
theorem fixes_leaf (leaf : schema.isLeaf = true)
    (traced : context.Traced whole value answer schema stage result final) :
    context.Fixes schema final := by
  have verbatim := (Options.wired_of_network network).verbatim
  have known := (sound.reached traced.reaches).here.knownFormats
  have becomes := traced.stage_becomes network sound accepted converted apart
  intro verdict judged
  cases verdict with
  | rejected violations =>
    exact absurd judged (leaf_not_refused leaf known becomes.eq_of_scalar (traced.judged accepted))
  | accepted again =>
    rcases leaf_answer leaf known judged with rfl | ⟨_, loose⟩
    · have settled := traced.throughout (answer_converted network sound converted accepted) trivial
      exact ⟨_, rfl, .refl (fun _ => rfl) fun part reached => (settled part reached).keyed⟩
    · exact absurd verbatim loose

/-- A name that took part and stands for no container fixes what its definition does. -/
theorem fixes_named {ref : NamedRef} (other : (context.definitions ref).isContainer = false)
    (traced : context.Traced whole value answer (.named ref) stage result final)
    (definition : ∀ stage result,
      context.Traced whole value answer (context.definitions ref) stage result final →
      context.Fixes (context.definitions ref) final) :
    context.Fixes (.named ref) final := by
  have becomes := traced.becomes network sound converted apart
  obtain ⟨first, rfl, further⟩ := traced.of_definition sound accepted other
  have known : ∀ tags, final.tags? = some tags → [.named ref] ⊆ tags := by
    intro tags carried tag tagged
    have inside : tag ∈ (first.withTags [.named ref]).tags := by
      cases first with
      | array content items own => exact (Tags.mem_merge _ _ _).mpr (.inr tagged)
      | object content fields own => exact (Tags.mem_merge _ _ _).mpr (.inr tagged)
      | _ => cases becomes; cases carried
    simpa [Value.tags, carried] using becomes.tags_subset inside
  intro verdict judged
  obtain ⟨inner, judged', rfl⟩ :=
    (judged_step (sound.reached traced.reaches) judged).by_definition other
  obtain ⟨again, rfl, same⟩ := definition _ _ further inner judged'
  refine ⟨_, rfl, ?_⟩
  have tagged := Value.congruence_equates.withTags same [.named ref]
  rwa [Value.withTags_of_subset known] at tagged

omit apart in
/-- An intersection that took part fixes what all of its components fix. -/
theorem fixes_intersection {node : Nat} {components : List Schema}
    (grounded : whole.Grounded context.definitions)
    (traced : context.Traced whole value answer (.intersection node components) stage result final)
    (each : ∀ component ∈ components, ∀ stage result,
      context.Traced whole value answer component stage result final →
      context.Fixes component final) : context.Fixes (.intersection node components) final := by
  obtain ⟨verbatim, _, lone, _⟩ := Options.wired_of_network network
  have own := sound.reached traced.reaches
  have settled := traced.throughout (answer_converted network sound converted accepted) trivial
  have same : final.Equates Eq final :=
    .refl (fun _ => rfl) fun part reached => (settled part reached).keyed
  intro verdict judged
  refine fixes_chain lone verbatim (fun component member => ?_) same (List.nil_subset _)
    (judged_step own judged).by_components
  obtain ⟨_, _, inner⟩ := traced.of_intersection network sound accepted member
  exact ⟨own.facet member, (grounded.reached traced.reaches).facet member,
    each component member _ _ inner⟩

/-- Whatever took part fixes what became of its part, when unions can select again and no union
finds that several options match. -/
theorem fixes (grounded : whole.Grounded context.definitions)
    (bare : value.Throughout Value.Bare) (lacking : answer.Throughout context.LacksForbiddenKeys)
    (selectsAgain : ∀ node choices stage result final,
      context.Traced whole value answer (.union node choices) stage result final →
      context.SelectsAgain choices stage final)
    (clear : ¬ context.SomeUnionAmbiguous whole value answer)
    (traced : context.Traced whole value answer schema stage result final) :
    context.Fixes schema final := by
  have own := sound.reached traced.reaches
  refine Schema.grounded_induction (motive := fun schema depth => ∀ stage result final,
    context.Traced whole value answer schema stage result final → final.depth ≤ depth →
    context.Fixes schema final) ?_ own (grounded.reached traced.reaches) final.depth stage result
    final traced (Nat.le_refl _)
  clear own traced
  intro schema depth own _ facets smaller stage result final traced shallow
  have lower : ∀ part ∈ final.contents, part.depth < depth := fun part member =>
    Nat.lt_of_lt_of_le (Value.depth_lt_of_mem_contents member) shallow
  by_cases leaf : schema.isLeaf = true
  · exact traced.fixes_leaf network sound accepted converted apart leaf
  cases shape : context.shape schema with
  | array node items least most =>
    refine traced.fixes_array network sound accepted converted apart shape
      (fun part member _ _ inner => smaller items (reaches_content ?_) _ (lower part member) _ _ _
        inner (Nat.le_refl _))
    rw [shape]
    exact Schema.items_mem_contents
  | object node properties additional =>
    refine traced.fixes_object network sound accepted converted apart shape
      (traced.throughout lacking (fun _ tagged => (nomatch tagged))).here
      (fun body member part inside _ _ inner => smaller body (reaches_content ?_) _
        (lower part inside) _ _ _ inner (Nat.le_refl _))
    rw [shape]
    exact member
  | _ =>
    cases schema with
    | union node choices =>
      exact traced.fixes_union network sound accepted converted apart
        (selectsAgain _ _ _ _ _ traced) clear
        (fun choice member _ _ inner => facets choice member _ _ _ inner shallow)
        (fun tag tagged => traced.of_tag network sound converted apart bare accepted tagged)
    | intersection node components =>
      exact traced.fixes_intersection network sound accepted converted grounded
        (fun component member _ _ inner => facets component member _ _ _ inner shallow)
    | named ref =>
      refine traced.fixes_named network sound accepted converted apart
        (Bool.eq_false_iff.mpr fun direct => ?_) (fun _ _ inner =>
          facets _ Schema.definition_mem_facets _ _ _ inner shallow)
      rw [Context.shape, if_pos direct] at shape
      rw [shape] at direct
      cases direct
    | array => cases shape
    | object => cases shape
    | _ => exact absurd rfl leaf

end Traced

end

end Context

end Conform
