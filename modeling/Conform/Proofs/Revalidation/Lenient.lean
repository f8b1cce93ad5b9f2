import Conform.Proofs.Attempt.Answers
import Conform.Proofs.Attempt.Ends
import Conform.Proofs.Revalidation.Scalars

/-!
# Lenient answers are answered alike

Lenient validation changes a value: it reads strings as numbers or truth values, takes a
lone scalar for an array, renames properties and drops unknown ones. By a schema without
unions and intersections it does so once. Its answer is accepted by the same schema with
the same options, and answered with the same data, in the same order, under the same tags.

An object is answered under its tag, so that a second validation reads its properties by
their own names.
-/

namespace Conform

/-! ## Schemas that judge by contents alone -/

/-- The node judges by no other schema for the same value, names apart, and declares no name
that no object may have. -/
def Schema.Direct : Schema → Prop
  | .union _ _ => False
  | .intersection _ _ => False
  | .object _ properties _ => ∀ name ∈ Property.names properties, name ∉ Validator.forbiddenKeys
  | _ => True

namespace Fields

/-- The value under a key, if there is one. -/
def present? (fields : Fields Value) (key : String) : Option Value :=
  if (fields.lookup key).isUndefined then none else some (fields.lookup key)

end Fields

namespace Validator

/-- Fields as an object leaves them: the declared ones first, in order, then the others, all
of them such that what judges them stands by them. -/
structure Renewable (stands : Schema → Value → Prop) (properties : List (Property Schema))
    (additional : Additional Schema) (fields : Fields Value) : Prop where
  permitted : ∀ entry ∈ fields, entry.1 ∉ forbiddenKeys
  optional : ∀ property ∈ properties, (fields.lookup property.name).isUndefined = true →
    property.required = false
  declared : ∀ property ∈ properties, (fields.lookup property.name).isUndefined = false →
    stands property.body (fields.lookup property.name)
  others : ∀ entry ∈ otherFields false properties fields,
    additional = .keep ∨ ∃ body, additional = .each body ∧ stands body entry.2
  ordered : declaredAnswers properties fields.present? ++ otherFields false properties fields =
    fields

section

variable {judges : Schema → Value → Verdict → Prop} {stands : Schema → Value → Prop}
  {wire drop : Bool} {properties : List (Property Schema)} {additional : Additional Schema}
  {fields answers : Fields Value}

/-- A declared property is found as it was answered. -/
theorem lookup_declaredAnswers (names : (Property.names properties).Nodup)
    {found : String → Option Value} {extras : Fields Value} {property : Property Schema}
    (member : property ∈ properties) (apart : property.name ∉ extras.keys) :
    Fields.lookup property.name (declaredAnswers properties found ++ extras) =
      (found property.name).getD .undefined := by
  have distinct : Fields.Distinct (declaredAnswers properties found) :=
    names.sublist keys_declaredAnswers_sublist
  have answered : Fields.get? property.name (declaredAnswers properties found) =
      found property.name := by
    cases answer : found property.name with
    | some value =>
      exact Fields.get?_of_mem distinct (mem_declaredAnswers.mpr ⟨property, member, rfl, answer⟩)
    | none =>
      refine Fields.get?_eq_none_iff.mpr (fun inside => ?_)
      obtain ⟨value, entry⟩ := Fields.exists_mem_of_mem_keys inside
      obtain ⟨_, _, _, some⟩ := mem_declaredAnswers.mp entry
      cases answer.symm.trans some
  rw [Fields.lookup, Fields.get?_append, answered, Fields.get?_eq_none_iff.mpr apart,
    Option.or_none]

/-- The other fields of the answers are those that were answered as such. -/
theorem otherFields_declaredAnswers {found : String → Option Value} {extras : Fields Value}
    (apart : ∀ entry ∈ extras, entry.1 ∉ Property.names properties)
    (there : ∀ entry ∈ extras, entry.2.isUndefined = false) :
    otherFields false properties (declaredAnswers properties found ++ extras) = extras := by
  have named : otherFields false properties (declaredAnswers properties found) = [] := by
    refine List.filter_eq_nil_iff.mpr (fun entry member => ?_)
    have inside := keys_declaredAnswers_sublist.subset (@Fields.mem_keys _ _ entry.2 _ member)
    simp [(isTaken_false properties entry.1).mpr inside]
  have kept : otherFields false properties extras = extras := by
    refine List.filter_eq_self.mpr (fun entry member => ?_)
    have untaken : isTaken false properties entry.1 = false :=
      Bool.eq_false_iff.mpr fun taken =>
        apart entry member ((isTaken_false properties entry.1).mp taken)
    simp [untaken, there entry member]
  unfold otherFields at named kept ⊢
  rw [List.filter_append, named, kept, List.nil_append]

/-- The answers of an object are as it leaves them. -/
theorem FieldsStep.renewable (names : (Property.names properties).Nodup)
    (allowed : ∀ name ∈ Property.names properties, name ∉ forbiddenKeys)
    (kept : ∀ part item answer, judges part item (.accepted answer) →
      stands part answer ∧ answer.isUndefined = item.isUndefined)
    (step : FieldsStep judges wire drop properties additional fields answers) :
    Renewable stands properties additional answers := by
  obtain ⟨found, extras, permitted, declared, others⟩ := step
  have origin : ∀ entry ∈ extras, ∃ value, (entry.1, value) ∈ otherFields wire properties fields ∧
      (additional = .keep ∧ entry.2 = value ∨
        ∃ body, additional = .each body ∧ judges body value (.accepted entry.2)) :=
    fun entry member => others.origin member
  have apart : ∀ property ∈ properties, property.name ∉ extras.keys :=
    fun property member among =>
      name_notMem_keys_otherFields member (others.keys_sublist.subset among)
  have there : ∀ entry ∈ extras, entry.2.isUndefined = false := by
    intro entry member
    obtain ⟨value, inside, ⟨_, same⟩ | ⟨body, _, judged⟩⟩ := origin entry member
    · rw [same]
      exact (mem_otherFields.mp inside).2.2
    · rw [(kept _ _ _ judged).2]
      exact (mem_otherFields.mp inside).2.2
  have others_eq : otherFields false properties (declaredAnswers properties found ++ extras) =
      extras := by
    refine otherFields_declaredAnswers (fun entry member named => ?_) there
    obtain ⟨property, listed, same⟩ := List.mem_map.mp named
    exact apart property listed (same ▸ @Fields.mem_keys _ _ entry.2 _ member)
  have lookups : ∀ property ∈ properties,
      Fields.lookup property.name (declaredAnswers properties found ++ extras) =
        (found property.name).getD .undefined :=
    fun property member => lookup_declaredAnswers names member (apart property member)
  have answered : ∀ property ∈ properties, ∀ answer, found property.name = some answer →
      stands property.body answer ∧ answer.isUndefined = false := by
    intro property member answer equal
    have step := declared property member
    rw [equal] at step
    cases step with
    | present present judged =>
      obtain ⟨stood, same⟩ := kept _ _ _ judged
      exact ⟨stood, same.trans present⟩
  constructor
  · intro entry member
    rcases List.mem_append.mp member with named | extra
    · exact allowed _ (keys_declaredAnswers_sublist.subset (@Fields.mem_keys _ _ entry.2 _ named))
    · obtain ⟨value, inside, _⟩ := origin entry extra
      exact permitted (entry.1, value) (mem_otherFields.mp inside).1
  · intro property member missing
    rw [lookups property member] at missing
    have step := declared property member
    cases equal : found property.name with
    | none =>
      rw [equal] at step
      cases step with
      | absent _ optional => exact optional
    | some answer =>
      rw [equal] at missing
      cases missing.symm.trans (answered property member answer equal).2
  · intro property member present
    rw [lookups property member] at present ⊢
    cases equal : found property.name with
    | none =>
      rw [equal] at present
      cases present
    | some answer => exact (answered property member answer equal).1
  · rw [others_eq]
    intro entry member
    obtain ⟨value, _, ⟨keep, _⟩ | ⟨body, typed, judged⟩⟩ := origin entry member
    · exact .inl keep
    · exact .inr ⟨body, typed, (kept _ _ _ judged).1⟩
  · rw [others_eq]
    congr 1
    refine List.filterMap_congr (fun property member => ?_)
    have same : Fields.present? (declaredAnswers properties found ++ extras) property.name =
        found property.name := by
      rw [Fields.present?, lookups property member]
      cases equal : found property.name with
      | none => rfl
      | some answer =>
        rw [Option.getD_some, (answered property member answer equal).2]
        rfl
    rw [same]

/-- Fields that are as an object leaves them are not refused. -/
theorem Renewable.not_refused {violations : List Violation}
    (renewable : Renewable stands properties additional fields)
    (renews : ∀ part item violations, stands part item →
      ¬ judges part item (.rejected violations)) :
    ¬ FieldsRefused judges false drop properties additional fields violations := by
  intro refused
  cases refused with
  | forbidden member forbidden => exact renewable.permitted _ member forbidden
  | missing member absent required =>
    rw [readKey_false] at absent
    cases (renewable.optional _ member absent).symm.trans required
  | property member present judged =>
    rw [readKey_false] at present judged
    exact renews _ _ _ (renewable.declared _ member present) judged
  | others refused =>
    cases refused with
    | unexpected closed kept member =>
      rcases renewable.others _ member with keep | ⟨body, typed, _⟩
      · cases closed.symm.trans keep
      · cases closed.symm.trans typed
    | judged typed member judged =>
      rcases renewable.others _ member with keep | ⟨body, also, stood⟩
      · cases typed.symm.trans keep
      · obtain rfl := Additional.each.inj (typed.symm.trans also)
        exact renews _ _ _ stood judged

/-- Fields that are as an object leaves them are answered alike. -/
theorem Renewable.like (renewable : Renewable stands properties additional fields)
    (renews : ∀ part item answer, stands part item → judges part item (.accepted answer) →
      item.Identical answer)
    (step : FieldsStep judges false drop properties additional fields answers) :
    Fields.Like (fun _ _ => True) fields answers := by
  obtain ⟨found, extras, permitted, declared, others⟩ := step
  rw [← renewable.ordered]
  refine List.rel_append ?_ ?_
  · refine declaredAnswers_like (fun property member => ?_)
    have step := declared property member
    unfold Fields.present?
    generalize found property.name = answer at step ⊢
    cases step with
    | absent missing optional =>
      rw [readKey_false] at missing
      rw [if_pos missing]
      exact .none
    | present there judged =>
      rw [readKey_false] at there judged
      rw [if_neg (Bool.eq_false_iff.mp there)]
      exact .some (renews _ _ _ (renewable.declared property member there) judged)
  · cases additional with
    | keep =>
      obtain rfl : extras = otherFields false properties fields := others
      exact List.forall₂_same.mpr (fun entry _ => ⟨rfl, Value.Like.refl (fun _ => trivial) _⟩)
    | deny =>
      have none : otherFields false properties fields = [] := by
        refine List.eq_nil_iff_forall_not_mem.mpr (fun entry member => ?_)
        rcases renewable.others entry member with keep | ⟨body, typed, _⟩
        · cases keep
        · cases typed
      rw [none, others.1]
      exact .nil
    | each body =>
      refine forall₂_imp_of_mem others ?_
      rintro entry member entry' ⟨keys, judged⟩
      rcases renewable.others entry member with keep | ⟨body', typed, stood⟩
      · cases keep
      · obtain rfl := Additional.each.inj typed
        exact ⟨keys, renews _ _ _ stood judged⟩

end

end Validator

namespace Context

variable {context : Context} {schema : Schema}

/-- The schema accepts the value, and answers it alike. -/
def Renews (context : Context) (schema : Schema) (value : Value) : Prop :=
  ∃ again, context.Judges schema value (.accepted again) ∧ value.Identical again

/-- What renews a value gives no other verdict on it. -/
theorem Renews.alike {value : Value} {verdict : Verdict} (renews : context.Renews schema value)
    (sound : context.Sound schema) (judged : context.Judges schema value verdict) :
    ∃ again, verdict = .accepted again ∧ value.Identical again := by
  obtain ⟨again, accepted, same⟩ := renews
  cases judged_alike sound accepted judged with
  | accepted alike => exact ⟨_, rfl, same.trans alike⟩

/-- With some fuel on, what renews a value ends at every place. -/
theorem Renews.ends {value : Value} (renews : context.Renews schema value)
    (sound : context.Sound schema) :
    ∃ bound, ∀ fuel, bound ≤ fuel → ∀ place, Ends (context.attempt fuel schema place value) := by
  obtain ⟨again, ⟨bound, origin, ended⟩, _⟩ := renews
  refine ⟨bound, fun fuel enough place => ?_⟩
  obtain ⟨verdict, there, _⟩ := attempt_follows sound enough origin place
    (Value.Like.refl (fun _ => trivial) value) _ ended
  exact ⟨verdict, there⟩

/-- What judges as a container judges a value on which the container's check ends. -/
theorem judges_of_shape_ends (container : (context.shape schema).isContainer = true)
    (fuel : Nat) (place : Identity) {value : Value}
    (ends : Ends (context.attemptAs schema fuel (context.shape schema) place value)) :
    ∃ verdict, context.Judges schema value verdict := by
  obtain ⟨extra, same⟩ := exists_attempt_shape container
  obtain ⟨verdict, ended⟩ := ends
  exact ⟨verdict, fuel + extra, place, (same fuel place value).trans ended⟩

section

variable {node : Nat} {content : Identity} {tags : Tags}

/-- An array that carries the tag is renewed when its items are. -/
theorem renews_array (sound : context.Sound schema) {items : Schema} {least most : Option Nat}
    (shaped : context.shape schema = .array node items least most) {list : List Value}
    (count : Validator.countReason? least most list.length = none)
    (each : ∀ item ∈ list, context.Renews items item) (known : schema ∈ tags) :
    context.Renews schema (.array content list tags) := by
  have inner : context.Sound items :=
    sound.reached (reaches_content (by rw [shaped]; exact Schema.items_mem_contents))
  obtain ⟨bound, ends⟩ :=
    exists_common_bound list (fun item member => (each item member).ends inner)
  obtain ⟨verdict, judged⟩ :
      ∃ verdict, context.Judges schema (.array content list tags) verdict := by
    refine judges_of_shape_ends (by rw [shaped]; rfl) (bound + 1) (.run 0) ?_
    rw [shaped, attemptAs_array]
    refine (Validator.checkArray_endsUnless (fun items found index item member => ?_)
      _ _ _ _).ends (fun _ => id)
    cases found
    exact (ends bound (Nat.le_refl bound) item member _).endsUnless
  cases verdict with
  | rejected violations =>
    rcases (judged_step sound judged).array_refused shaped with
      none | ⟨_, found, ⟨reason, miscounted⟩ | ⟨_, item, causes, member, refused, _⟩⟩
    · cases none
    · cases found
      cases count.symm.trans miscounted
    · cases found
      obtain ⟨_, accepted, _⟩ := (each item member).alike inner refused
      cases accepted
  | accepted again =>
    obtain ⟨place, _, answers, found, _, rfl, accepted⟩ := (judged_step sound judged).array shaped
    cases found
    refine ⟨_, judged, Value.like_array_iff.mpr ⟨trivial, ?_, ?_⟩⟩
    · refine forall₂_imp_of_mem accepted (fun item member answer judged => ?_)
      obtain ⟨_, same, alike⟩ := (each item member).alike inner judged
      obtain rfl := Verdict.accepted.inj same
      exact alike
    · exact (Tags.merge_of_subset (List.cons_subset.mpr ⟨known, List.nil_subset _⟩)).symm

/-- With some fuel, whatever judges fields that are as an object leaves them ends. -/
theorem exists_fields_bound {properties : List (Property Schema)}
    {additional : Additional Schema} {fields : Fields Value}
    (renewable : Validator.Renewable (fun part item => context.Sound part ∧
      context.Renews part item) properties additional fields) :
    ∃ bound, (∀ property ∈ properties, (fields.lookup property.name).isUndefined = false →
        ∀ place, Ends (context.attempt bound property.body place
          (fields.lookup property.name))) ∧
      ∀ body ∈ additional.bodies, ∀ entry ∈ Validator.otherFields false properties fields,
        ∀ place, Ends (context.attempt bound body place entry.2) := by
  have declared : ∃ bound, ∀ fuel, bound ≤ fuel → ∀ property ∈ properties,
      (fields.lookup property.name).isUndefined = false → ∀ place,
      Ends (context.attempt fuel property.body place (fields.lookup property.name)) := by
    refine exists_common_bound properties (fun property member => ?_)
    cases missing : (fields.lookup property.name).isUndefined with
    | true => exact ⟨0, fun _ _ present => nomatch present⟩
    | false =>
      obtain ⟨sound, renews⟩ := renewable.declared property member missing
      obtain ⟨bound, ends⟩ := renews.ends sound
      exact ⟨bound, fun fuel enough _ => ends fuel enough⟩
  have others : ∃ bound, ∀ fuel, bound ≤ fuel →
      ∀ entry ∈ Validator.otherFields false properties fields, ∀ body ∈ additional.bodies,
      ∀ place, Ends (context.attempt fuel body place entry.2) := by
    refine exists_common_bound _ (fun entry member => ?_)
    rcases renewable.others entry member with rfl | ⟨body, rfl, sound, renews⟩
    · exact ⟨0, fun _ _ body inside => nomatch inside⟩
    · obtain ⟨bound, ends⟩ := renews.ends sound
      refine ⟨bound, fun fuel enough body inside => ?_⟩
      obtain rfl := List.mem_singleton.mp inside
      exact ends fuel enough
  obtain ⟨first, endsDeclared⟩ := declared
  obtain ⟨second, endsOthers⟩ := others
  exact ⟨max first second, endsDeclared _ (Nat.le_max_left _ _), fun body inside entry member =>
    endsOthers _ (Nat.le_max_right _ _) entry member body inside⟩

/-- An object that carries the tag is renewed when its fields are as it leaves them. -/
theorem renews_object (sound : context.Sound schema) {properties : List (Property Schema)}
    {additional : Additional Schema}
    (shaped : context.shape schema = .object node properties additional) {fields : Fields Value}
    (renewable : Validator.Renewable (fun part item => context.Sound part ∧
      context.Renews part item) properties additional fields)
    (known : schema ∈ tags) : context.Renews schema (.object content fields tags) := by
  have own : (context.settings.convertFromNetwork && !tags.has schema) = false := by
    rw [(Tags.has_eq_true_iff _ _).mpr known, Bool.not_true, Bool.and_false]
  obtain ⟨bound, endsDeclared, endsOthers⟩ := exists_fields_bound renewable
  obtain ⟨verdict, judged⟩ :
      ∃ verdict, context.Judges schema (.object content fields tags) verdict := by
    refine judges_of_shape_ends (by rw [shaped]; rfl) (bound + 1) (.run 0) ?_
    rw [shaped, attemptAs_object]
    refine (Validator.checkObject_endsUnless
      (fun index => by rw [Property.mem_checkOrder, List.length_map]) ?_ ?_ _).ends (fun _ => id)
    · intro content' fields' tags' same index property member
      cases same
      obtain ⟨declared, listed, rfl⟩ := List.mem_map.mp member
      rw [own, Validator.readKey_false]
      exact fun present => (endsDeclared declared listed present _).endsUnless
    · intro content' fields' tags' same index body member entry inside
      cases same
      rw [own, Validator.otherFields_map] at inside
      cases additional with
      | each declared =>
        obtain rfl := List.mem_singleton.mp member
        exact (endsOthers declared (.head _) entry inside _).endsUnless
      | keep => cases member
      | deny => cases member
  cases verdict with
  | rejected violations =>
    rcases (judged_step sound judged).object_refused shaped with
      other | ⟨_, _, _, same, refused⟩
    · exact absurd rfl other
    · cases same
      rw [own] at refused
      refine absurd refused (renewable.not_refused ?_)
      rintro part item violations ⟨sound, renews⟩ judged
      obtain ⟨_, accepted, _⟩ := renews.alike sound judged
      cases accepted
  | accepted again =>
    obtain ⟨place, _, _, answers, _, same, rfl, step⟩ := (judged_step sound judged).object shaped
    cases same
    rw [own] at step
    refine ⟨_, judged, Value.like_object_iff.mpr ⟨trivial, renewable.like ?_ step, ?_⟩⟩
    · rintro part item answer ⟨sound, renews⟩ judged
      obtain ⟨_, accepted, alike⟩ := renews.alike sound judged
      obtain rfl := Verdict.accepted.inj accepted
      exact alike
    · rw [Tags.insert, if_pos ((Tags.has_eq_true_iff _ _).mpr known)]

end

/-- A leaf renews its answer, whatever tags the answer is given. -/
theorem leaf_renews (leaf : schema.isLeaf = true) (known : schema.KnownFormats context.format)
    {value answer : Value} (judged : context.Judges schema value (.accepted answer))
    (schemas : List Schema) : context.Renews schema (answer.withTags schemas) := by
  by_cases unknown : schema = .unknown
  · subst unknown
    exact ⟨_, ⟨1, .run 0, rfl⟩, Value.Like.refl (fun _ => trivial) _⟩
  · have again := (leaf_again leaf known judged).1
    have scalar : answer.tags? = none := leaf_scalar leaf known unknown again
    rw [Value.withTags_of_subset (fun tags some => by cases scalar.symm.trans some)]
    exact ⟨answer, again, Value.Like.refl (fun _ => trivial) _⟩

/-- A name renews a value that it has tagged when its definition does. -/
theorem renews_named {ref : NamedRef} {value : Value} {schemas : List Schema}
    (other : (context.definitions ref).isContainer = false)
    (renews : context.Renews (context.definitions ref)
      (value.withTags ([.named ref] ++ schemas))) :
    context.Renews (.named ref) (value.withTags ([.named ref] ++ schemas)) := by
  obtain ⟨again, ⟨fuel, origin, ended⟩, alike⟩ := renews
  refine ⟨again.withTags [.named ref], ⟨fuel + 3, origin, ?_⟩, alike.withTags_of_subset ?_⟩
  · rw [attempt_named_other _ _ _ _ other, ended]
    rfl
  · intro tags found schema member
    obtain rfl := List.mem_singleton.mp member
    cases value <;> cases found <;> exact (Tags.mem_merge _ _ _).mpr (.inr (.head _))

/-- A schema without unions and intersections that accepts a value, under whatever options,
accepts its answer as well, and answers it with the same data in the same order and the same
tags. -/
theorem lenient_answer_renewed (sound : context.Sound schema)
    (direct : schema.Throughout context.definitions Schema.Direct) {value answer : Value}
    (judged : context.Judges schema value (.accepted answer)) :
    ∃ again, context.Judges schema answer (.accepted again) ∧ answer.Identical again := by
  have everywhere : schema.Throughout context.definitions
      (fun node => node.WellFormed context.format ∧ node.Direct) :=
    fun node reached => ⟨sound node reached, direct node reached⟩
  -- a name adds its tag to the answer of its definition, so more tags have to be reckoned with
  suffices stable : (∀ schemas, context.Renews schema (answer.withTags schemas)) ∧
      answer.isUndefined = value.isUndefined by
    have renews := stable.1 []
    rwa [Value.withTags_of_subset (fun _ _ => List.nil_subset _)] at renews
  refine accepted_induction (motive := fun schema value answer =>
    (∀ schemas, context.Renews schema (answer.withTags schemas)) ∧
      answer.isUndefined = value.isUndefined) ?_ sound everywhere judged
  intro schema value answer everywhere step
  have sound : context.Sound schema := everywhere.imp (fun _ => And.left)
  cases step with
  | leaf leaf judged =>
    have known := sound.here.knownFormats
    exact ⟨leaf_renews leaf known judged, (leaf_again leaf known judged).2⟩
  | @items node items least most list answers place shape found count judged =>
    refine ⟨fun schemas => ?_, ?_⟩
    · refine renews_array sound shape (judged.length_eq ▸ count) (fun answer member => ?_) ?_
      · obtain ⟨item, _, _, _, stable⟩ := forall₂_mem_right judged member
        have renews := (stable answer rfl).1 []
        rwa [Value.withTags_of_subset (fun _ _ => List.nil_subset _)] at renews
      · exact (Tags.mem_merge _ _ _).mpr (.inl ((Tags.mem_merge _ _ _).mpr (.inr (.head _))))
    · cases value <;> first | rfl | cases found
  | @fields node properties additional content fields answers tags place shape object judged =>
    subst object
    have own := (everywhere.reached (reaches_shape context schema)).here
    rw [shape] at own
    refine ⟨fun schemas => ?_, rfl⟩
    refine renews_object sound shape ?_
      ((Tags.mem_merge _ _ _).mpr (.inl ((Tags.mem_insert _ _ _).mpr (.inr rfl))))
    refine judged.renewable own.1.distinctNames own.2 ?_
    rintro part item answer ⟨everywhere, _, stable⟩
    have renews := (stable answer rfl).1 []
    rw [Value.withTags_of_subset (fun _ _ => List.nil_subset _)] at renews
    exact ⟨⟨everywhere.imp (fun _ => And.left), renews⟩, (stable answer rfl).2⟩
  | union shape judged =>
    subst shape
    exact everywhere.here.2.elim
  | intersection shape judged =>
    subst shape
    exact everywhere.here.2.elim
  | @named ref inner verdict shape other judged tagged =>
    subst shape
    obtain ⟨first, rfl, rfl⟩ := accepted_of_map tagged
    obtain ⟨renews, present⟩ := judged.2.2 first rfl
    refine ⟨fun schemas => ?_, (Value.isUndefined_withTags _ _).trans present⟩
    rw [Value.withTags_withTags]
    exact renews_named other (renews ([.named ref] ++ schemas))

end Context

/-! ## A family that recurs by way of a renamed array -/

namespace Folders

/-- A folder. -/
def folder : Schema :=
  .named ⟨0, "Folder"⟩

/-- A folder has a label and sizes, may be open, and may hold folders. -/
def definitions (_ : NamedRef) : Schema :=
  .object 1 [⟨"label", true, some "n", .string 2 {}⟩,
    ⟨"sizes", true, some "s", .array 3 (.integer 4 {}) none none⟩,
    ⟨"open", false, none, .boolean 5 {}⟩,
    ⟨"folders", false, some "f", .array 6 folder none none⟩] .deny

/-- All nodes of the family. -/
def nodes : List Schema :=
  [folder, definitions ⟨0, "Folder"⟩, .string 2 {}, .array 3 (.integer 4 {}) none none,
    .integer 4 {}, .boolean 5 {}, .array 6 folder none none]

/-- Every leniency at once. -/
def lenient : Context :=
  ⟨definitions, fun _ => none, ⟨.drop, true, true, true, true⟩⟩

/-- An open folder that holds another, as it arrives: under wire names, with its one size by
itself and as a string, and with a key that is not declared. -/
def received : Value :=
  .object (.run 0) [("n", .string "top"), ("s", .string " 12 "), ("open", .string "true"),
    ("colour", .null), ("f", .array (.run 1) [.object (.run 2)
      [("s", .array (.run 3) [.string "3", .string "-4"] []), ("n", .string "sub")] []] [])] []

/-- An attempt that is seen to accept has an answer. -/
theorem exists_answer (attempt : Attempt)
    (accepts : attempt.toOption.map Verdict.isAccepted = some true) :
    ∃ answer, attempt = .ok (.accepted answer) := by
  rcases attempt with stop | answer | violations
  · cases accepts
  · exact ⟨answer, rfl⟩
  · cases accepts

/-- The folder is accepted, and its answer is accepted and answered alike. -/
theorem received_renewed :
    ∃ answer, lenient.Judges folder received (.accepted answer) ∧
      ∃ again, lenient.Judges folder answer (.accepted again) ∧ answer.Identical again := by
  have everywhere : ∀ {holds : Schema → Prop}, (∀ node ∈ nodes, holds node) →
      folder.Throughout definitions holds := fun all =>
    Schema.throughout_of_closed nodes (by decide +kernel) all (.head _)
  have sound : lenient.Sound folder := everywhere (by
    simp [nodes, definitions, folder, Schema.wellFormed_iff, Schema.DistinctNames,
      Schema.KnownFormats, Property.names])
  have direct : folder.Throughout definitions Schema.Direct := everywhere (by
    simp [nodes, definitions, folder, Schema.Direct, Property.names, Validator.forbiddenKeys])
  obtain ⟨answer, ended⟩ :=
    exists_answer (lenient.attempt 20 folder (.run 4) received) (by decide +kernel)
  exact ⟨answer, ⟨20, .run 4, ended⟩,
    Context.lenient_answer_renewed sound direct ⟨20, .run 4, ended⟩⟩

end Folders

end Conform
