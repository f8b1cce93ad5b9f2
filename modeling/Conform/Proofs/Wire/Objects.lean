import Conform.Proofs.Wire.Decoding

/-!
# One object type at work

An object type answers a field under its name, from where the field lies, and leaves fields of
others where they lie. When it is apart from the object types that judged before, every field
that they moved is found, and none is taken for another.
-/

namespace Conform

open Validator (readKey isTaken otherFields FieldsStep)

namespace Validator

variable {judges : Schema → Value → Verdict → Prop} {wire : Bool}
  {properties : List (Property Schema)} {additional : Additional Schema}
  {fields answers : Fields Value}

/-- What becomes of a field: nothing is there, it is kept, or it is answered. -/
inductive Outcome (judges : Schema → Value → Verdict → Prop) (body? : Option Schema)
    (item : Value) : Value → Prop
  | absent (missing : item.isUndefined = true) {answer : Value}
      (none : answer.isUndefined = true) : Outcome judges body? item answer
  | kept (none : body? = none) : Outcome judges body? item item
  | judged {body : Schema} {answer : Value} (some : body? = some body)
      (there : item.isUndefined = false) (judged : judges body item (.accepted answer)) :
      Outcome judges body? item answer

/-- The field of a declared property is answered from where the property is read. -/
theorem FieldsStep.declared_outcome (names : (Property.names properties).Nodup)
    (distinct : fields.Distinct)
    (step : FieldsStep judges wire false properties additional fields answers)
    {property : Property Schema} (member : property ∈ properties) :
    Outcome judges (some property.body) (fields.lookup (readKey wire property))
      (answers.lookup property.name) := by
  have origin : ∀ answer, (property.name, answer) ∈ answers →
      (fields.lookup (readKey wire property)).isUndefined = false := by
    intro answer inside
    rcases step.origin inside with ⟨other, listed, same, there, _⟩ | ⟨value, other, _⟩
    · obtain rfl := List.inj_on_of_nodup_map names listed member same
      exact there
    · exact absurd (Fields.mem_keys other) (name_notMem_keys_otherFields member)
  cases there : (fields.lookup (readKey wire property)).isUndefined with
  | true =>
    refine .absent there (by_contra fun some => ?_)
    have inside := Fields.mem_of_lookup (Bool.eq_false_iff.mpr some)
    cases there.symm.trans (origin _ inside)
  | false =>
    obtain ⟨answer, judged, inside⟩ := step.mem_of_read member there
    rw [Fields.lookup_of_mem (step.distinct names distinct) inside]
    exact .judged rfl there judged

/-- A field that no property takes is answered where it lies. -/
theorem FieldsStep.other_outcome (names : (Property.names properties).Nodup)
    (distinct : fields.Distinct)
    (step : FieldsStep judges wire false properties additional fields answers) {key : String}
    (untaken : isTaken wire properties key = false) :
    Outcome judges (Schema.otherBody? additional) (fields.lookup key) (answers.lookup key) := by
  have origin : ∀ answer, (key, answer) ∈ answers →
      (fields.lookup key).isUndefined = false ∧ ((additional = .keep ∧ answer = fields.lookup key) ∨
        ∃ body, additional = .each body ∧ judges body (fields.lookup key) (.accepted answer)) := by
    intro answer inside
    rcases step.origin inside with ⟨other, listed, named, _⟩ | ⟨value, other, how⟩
    · cases untaken.symm.trans (isTaken_of_mem listed (.inr named))
    · obtain ⟨read, _, there⟩ := mem_otherFields.mp other
      rw [Fields.lookup_of_mem distinct read]
      exact ⟨there, how⟩
  cases there : (fields.lookup key).isUndefined with
  | true =>
    refine .absent there (by_contra fun some => ?_)
    have inside := Fields.mem_of_lookup (Bool.eq_false_iff.mpr some)
    cases there.symm.trans (origin _ inside).1
  | false =>
    obtain ⟨answer, inside⟩ := Fields.exists_mem_of_mem_keys
      (step.key_mem_keys (mem_otherFields.mpr ⟨Fields.mem_of_lookup there, untaken, there⟩))
    rw [Fields.lookup_of_mem (step.distinct names distinct) inside]
    rcases (origin answer inside).2 with ⟨keep, same⟩ | ⟨body, typed, judged⟩
    · rw [same]
      exact .kept (by rw [keep]; rfl)
    · exact .judged (by rw [typed]; rfl) there judged

/-- Where names are read as they are here, each field is answered where it lies. -/
theorem FieldsStep.outcome (names : (Property.names properties).Nodup) (distinct : fields.Distinct)
    (step : FieldsStep judges false false properties additional fields answers) (key : String) :
    Outcome judges (Schema.bodyAt? properties additional key) (fields.lookup key)
      (answers.lookup key) := by
  cases taken : isTaken false properties key with
  | true =>
    obtain ⟨property, listed, rfl⟩ := List.mem_map.mp ((isTaken_false properties key).mp taken)
    have outcome := step.declared_outcome names distinct listed
    rwa [readKey_false, ← Schema.bodyAt?_declared names listed] at outcome
  | false =>
    rw [Schema.bodyAt?_other fun property listed same =>
      Bool.eq_false_iff.mp taken (isTaken_of_mem listed (.inr same))]
    exact step.other_outcome names distinct taken

end Validator

namespace Context

variable {context : Context} {called : Panel} {tags : Tags} {schema : Schema} {node : Nat}
  {properties : List (Property Schema)} {additional : Additional Schema}
  {judges : Schema → Value → Verdict → Prop} {fields answers : Fields Value}
  {inner outer key : String}

/-- A field that lies somewhere under one set of tags lies somewhere under another. -/
theorem Lies.under (lies : context.Lies called tags inner outer key) (tags' : Tags) :
    ∃ key', context.Lies called tags' inner outer key' := by
  cases lies with
  | declared member shaped listed => exact ⟨_, .declared member shaped listed⟩
  | other free => exact ⟨_, .other free⟩

/-- An object type that judges changes nothing for the others. -/
theorem Lies.of_insert (lies : context.Lies called tags inner outer key)
    (shaped : context.shape schema = .object node properties additional)
    (untaken : isTaken (!tags.has schema) properties key = false) :
    context.Lies called (tags.insert schema) inner outer key := by
  rcases lies.how with
    ⟨judge, _, _, _, member, shaped', property, listed, rfl, rfl, now⟩ | ⟨rfl, rfl, free⟩
  · have other : judge ≠ schema := by
      rintro rfl
      cases shaped'.symm.trans shaped
      cases untaken.symm.trans (Validator.isTaken_of_mem listed (.inl now))
    have same : (tags.insert schema).has judge = tags.has judge := by
      rw [Bool.eq_iff_iff, Tags.has_eq_true_iff, Tags.has_eq_true_iff, Tags.mem_insert]
      exact or_iff_left other
    have lies : context.Lies called (tags.insert schema) property.name (readKey true property)
      (readKey (!(tags.insert schema).has judge) property) := .declared member shaped' listed
    rwa [same, now] at lies
  · exact .other free

/-- The tag of a name that stands for no container is that of no object type. -/
theorem tagged_of_insert_named {ref : NamedRef} {judge : Schema}
    (other : (context.definitions ref).isContainer = false)
    (shaped : context.shape judge = .object node properties additional)
    (tagged : judge ∈ tags.insert (.named ref)) : judge ∈ tags := by
  refine ((Tags.mem_insert _ _ _).mp tagged).resolve_right ?_
  rintro rfl
  rw [shape, other] at shaped
  cases shaped

/-- The tag of a name that stands for no container moves no field. -/
theorem Lies.of_named {ref : NamedRef}
    (other : (context.definitions ref).isContainer = false) :
    context.Lies called (tags.insert (.named ref)) inner outer key ↔
      context.Lies called tags inner outer key := by
  have same : ∀ judge node properties additional,
      context.shape judge = .object node properties additional →
      (tags.insert (.named ref)).has judge = tags.has judge := by
    intro judge node properties additional shaped
    rw [Bool.eq_iff_iff, Tags.has_eq_true_iff, Tags.has_eq_true_iff]
    exact ⟨tagged_of_insert_named other shaped,
      fun tagged => (Tags.mem_insert _ _ _).mpr (.inl tagged)⟩
  exact ⟨fun lies => lies.of_tags fun judge _ _ _ shaped => (same judge _ _ _ shaped).symm,
    fun lies => lies.of_tags same⟩

section

variable (member : called schema)
  (shaped : context.shape schema = .object node properties additional)
  (apart : ∀ judge node' properties' additional', called judge →
    context.shape judge = .object node' properties' additional' →
    judge = schema ∨ Property.Apart properties' properties)
  (lies : context.Lies called tags inner outer key)
  (untaken : isTaken (!tags.has schema) properties key = false)

include member shaped apart lies untaken

/-- A field that an object type does not take has the name of none of its properties. -/
theorem Lies.undeclared : ∀ property ∈ properties, property.name ≠ inner := by
  intro shared inside same
  rcases lies.how with
    ⟨judge, _, _, _, member', shaped', property, listed, rfl, rfl, now⟩ | ⟨rfl, rfl, free⟩
  · rcases apart _ _ _ _ member' shaped' with rfl | apart
    · cases shaped'.symm.trans shaped
      cases untaken.symm.trans (Validator.isTaken_of_mem listed (.inl now))
    · have plain := apart.single property listed shared inside same.symm
      rw [Validator.readKey_of_plain plain] at now
      cases untaken.symm.trans (Validator.isTaken_of_mem inside (.inr (same.trans now)))
  · cases untaken.symm.trans (Validator.isTaken_of_mem inside (.inr same))

/-- A field that an object type does not take is none that it takes under other tags. -/
theorem Lies.elsewhere (tags' : Tags) : ∃ key', context.Lies called tags' inner outer key' ∧
    isTaken (!tags'.has schema) properties key' = false := by
  rcases lies.how with
    ⟨judge, _, _, _, member', shaped', property, listed, rfl, rfl, now⟩ | ⟨rfl, rfl, free⟩
  · refine ⟨_, .declared member' shaped' listed, ?_⟩
    rcases apart _ _ _ _ member' shaped' with rfl | apart
    · cases shaped'.symm.trans shaped
      cases untaken.symm.trans (Validator.isTaken_of_mem listed (.inl now))
    by_cases renamed : property.Renamed
    · exact Validator.untaken_of_true (apart.untaken listed renamed
        ((Validator.readKey_eq _ property).imp Eq.symm Eq.symm)) _
    · rw [Validator.readKey_of_plain renamed] at now ⊢
      refine Bool.eq_false_iff.mpr (fun taken => ?_)
      obtain ⟨shared, inside, takes⟩ := Validator.exists_of_isTaken taken
      obtain ⟨_, _, named⟩ := apart.shared listed inside (.inr rfl) (Validator.takes_true takes)
      cases untaken.symm.trans (Validator.isTaken_of_mem inside (.inr (named.trans now)))
  · exact ⟨_, .other free, Validator.untaken_of_true (free _ _ _ _ member shaped) _⟩

end

section

variable (member : called schema)
  (shaped : context.shape schema = .object node properties additional)
  (distinct : fields.Distinct)

include member shaped distinct

section

variable (names : (Property.names properties).Nodup)
  (apart : ∀ judge node' properties' additional', called judge →
    context.shape judge = .object node' properties' additional' →
    judge = schema ∨ Property.Apart properties' properties)
  (step : FieldsStep judges (!tags.has schema) false properties additional fields answers)

include names apart step

/-- A field that an object type declares becomes, wherever it lay, the field where it lies. -/
theorem declared_answered {judge : Schema} {node' : Nat} {properties' : List (Property Schema)}
    {additional' : Additional Schema} (member' : called judge)
    (shaped' : context.shape judge = .object node' properties' additional')
    {property : Property Schema} (listed : property ∈ properties') :
    Validator.Outcome judges (Schema.bodyAt? properties additional property.name)
      (fields.lookup (readKey (!tags.has judge) property))
      (answers.lookup (readKey (!(tags.insert schema).has judge) property)) := by
  by_cases same : judge = schema
  · subst same
    cases shaped'.symm.trans shaped
    have own : (tags.insert judge).has judge = true :=
      (Tags.has_eq_true_iff _ _).mpr ((Tags.mem_insert _ _ _).mpr (.inr rfl))
    rw [own, Bool.not_true, Validator.readKey_false, Schema.bodyAt?_declared names listed]
    exact step.declared_outcome names distinct listed
  have other := (apart _ _ _ _ member' shaped').resolve_left same
  have unmoved : (tags.insert schema).has judge = tags.has judge := by
    rw [Bool.eq_iff_iff, Tags.has_eq_true_iff, Tags.has_eq_true_iff, Tags.mem_insert]
    exact or_iff_left same
  have before : context.Lies called tags property.name (readKey true property)
    (readKey (!tags.has judge) property) := .declared member' shaped' listed
  rw [unmoved]
  have their := (Validator.readKey_eq (!tags.has judge) property).imp Eq.symm Eq.symm
  generalize readKey (!tags.has judge) property = key at before their ⊢
  cases taken : isTaken (!tags.has schema) properties key with
  | true =>
    -- both object types have a property of this name, which neither renames
    obtain ⟨shared, inside, takes⟩ := Validator.exists_of_isTaken taken
    obtain ⟨⟨_, named⟩, read, named'⟩ :=
      other.shared listed inside their (Validator.takes_true takes)
    have plain : ¬ shared.Renamed := fun renamed => renamed (read.trans named'.symm)
    have outcome := step.declared_outcome names distinct inside
    rw [Validator.readKey_of_plain plain, named'] at outcome
    rwa [named, ← named', Schema.bodyAt?_declared names inside, named']
  | false =>
    rw [Schema.bodyAt?_other (before.undeclared member shaped apart taken)]
    exact step.other_outcome names distinct taken

/-- A field that no object type takes is answered where it lies. -/
theorem other_answered (free : ∀ judge node properties additional, called judge →
      context.shape judge = .object node properties additional →
      isTaken true properties key = false) :
    Validator.Outcome judges (Schema.bodyAt? properties additional key) (fields.lookup key)
      (answers.lookup key) := by
  have untaken := Validator.untaken_of_true (free _ _ _ _ member shaped) (!tags.has schema)
  have before : context.Lies called tags _ _ _ := .other free
  rw [Schema.bodyAt?_other (before.undeclared member shaped apart untaken)]
  exact step.other_outcome names distinct untaken

/-- Where a field lies after an object type has judged, it is what became of the field where it
lay before. -/
theorem Lies.answered (lies : context.Lies called (tags.insert schema) inner outer key) :
    ∃ before, context.Lies called tags inner outer before ∧
      Validator.Outcome judges (Schema.bodyAt? properties additional inner)
        (fields.lookup before) (answers.lookup key) := by
  cases lies with
  | declared member' shaped' listed =>
    exact ⟨_, .declared member' shaped' listed,
      declared_answered member shaped distinct names apart step member' shaped' listed⟩
  | other free =>
    exact ⟨_, .other free, other_answered member shaped distinct names apart step free⟩

/-- Where a field lies before an object type judges, it becomes the field where it lies then. -/
theorem Lies.further (lies : context.Lies called tags inner outer key) :
    ∃ after, context.Lies called (tags.insert schema) inner outer after ∧
      Validator.Outcome judges (Schema.bodyAt? properties additional inner)
        (fields.lookup key) (answers.lookup after) := by
  cases lies with
  | declared member' shaped' listed =>
    exact ⟨_, .declared member' shaped' listed,
      declared_answered member shaped distinct names apart step member' shaped' listed⟩
  | other free =>
    exact ⟨_, .other free, other_answered member shaped distinct names apart step free⟩

end

/-- Whatever is there after an object type has judged lies where the tags say, when that is so
before with whatever it does not take. -/
theorem covered_answer
    (covered : ∀ key, isTaken (!tags.has schema) properties key = false →
      (fields.lookup key).isUndefined = false →
      ∃ inner outer, context.Lies called tags inner outer key)
    (step : FieldsStep judges (!tags.has schema) false properties additional fields answers)
    (there : (answers.lookup key).isUndefined = false) :
    ∃ inner outer, context.Lies called (tags.insert schema) inner outer key := by
  have own : (tags.insert schema).has schema = true :=
    (Tags.has_eq_true_iff _ _).mpr ((Tags.mem_insert _ _ _).mpr (.inr rfl))
  rcases step.origin (Fields.mem_of_lookup there) with
    ⟨property, listed, rfl, _⟩ | ⟨value, other, _⟩
  · have lies : context.Lies called (tags.insert schema) property.name (readKey true property)
      (readKey (!(tags.insert schema).has schema) property) := .declared member shaped listed
    rw [own, Bool.not_true, Validator.readKey_false] at lies
    exact ⟨_, _, lies⟩
  · obtain ⟨read, untaken, present⟩ := Validator.mem_otherFields.mp other
    rw [← Fields.lookup_of_mem distinct read] at present
    obtain ⟨inner, outer, lies⟩ := covered key untaken present
    exact ⟨inner, outer, lies.of_insert shaped untaken⟩

end

end Context

end Conform
