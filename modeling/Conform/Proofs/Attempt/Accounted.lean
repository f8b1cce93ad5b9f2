import Conform.Proofs.Attempt.Answers

/-!
# Every field is accounted for

An object that drops nothing answers for the fields that are there. Where a declared property
reads the key of a field, the property answers it under its own name. Where no property reads the
key or is named by it, the field is kept as it is, or the object is refused.

Between the two lie the own names of renamed properties, where wire names are read: no property
reads them, and yet they count as declared, since what the property itself answers goes by them.
Such a field is left out, and what the answer has under its key is the property's own.
-/

namespace Conform

namespace Validator

section

variable (judges : Schema → Value → Verdict → Prop) (wire : Bool)
  (properties : List (Property Schema)) (answers : Fields Value)

/-- What the answers make of a field. -/
inductive Accounted (key : String) (value : Value) : Prop
  /-- Every property that reads the key has answered the field, under its own name. -/
  | read (reader : ∃ property ∈ properties, readKey wire property = key)
      (answered : ∀ property ∈ properties, readKey wire property = key → ∃ result,
        judges property.body value (.accepted result) ∧ answers.get? property.name = some result)
  /-- No property reads the key or is named by it, and the field is there as it was. -/
  | kept (free : ∀ property ∈ properties, readKey wire property ≠ key ∧ property.name ≠ key)
      (found : answers.get? key = some value)

/-- The key names a property that is read under its wire name, and no other property reads it. -/
structure Shadowed (key : String) : Prop where
  wired : wire = true
  named : ∃ property ∈ properties, property.name = key
  unread : ∀ property ∈ properties, readKey wire property ≠ key

end

variable {judges : Schema → Value → Verdict → Prop} {wire drop : Bool}
  {properties : List (Property Schema)} {additional : Additional Schema}
  {fields answers : Fields Value} {key : String} {value : Value}

/-- A field whose key is not taken is kept, where no schema is given for such fields and none is
dropped. -/
theorem FieldsStep.mem_of_untaken (untyped : additional = .keep ∨ additional = .deny)
    (step : FieldsStep judges wire false properties additional fields answers)
    (member : (key, value) ∈ otherFields wire properties fields) : (key, value) ∈ answers := by
  obtain ⟨found, extras, _, _, others⟩ := step
  rcases untyped with rfl | rfl
  · obtain rfl : extras = otherFields wire properties fields := others
    exact List.mem_append_right _ member
  · rcases others.2 with drops | none
    · cases drops
    · rw [none] at member
      cases member

/-- A field that is there is accounted for, unless its key is shadowed. -/
theorem FieldsStep.accounted (names : (Property.names properties).Nodup)
    (distinct : fields.Distinct) (untyped : additional = .keep ∨ additional = .deny)
    (step : FieldsStep judges wire false properties additional fields answers)
    (member : (key, value) ∈ fields) (there : value.isUndefined = false) :
    Accounted judges wire properties answers key value ∨ Shadowed wire properties key := by
  have unique : answers.Distinct := step.distinct names distinct
  by_cases reader : ∃ property ∈ properties, readKey wire property = key
  · refine .inl (.read reader ?_)
    rintro property listed rfl
    have found := Fields.lookup_of_mem distinct member
    obtain ⟨result, judged, answered⟩ := step.mem_of_read listed (found ▸ there)
    exact ⟨result, found ▸ judged, Fields.get?_of_mem unique answered⟩
  have unread : ∀ property ∈ properties, readKey wire property ≠ key :=
    fun property listed reads => reader ⟨property, listed, reads⟩
  by_cases named : ∃ property ∈ properties, property.name = key
  · refine .inr ⟨?_, named, unread⟩
    obtain ⟨property, listed, rfl⟩ := named
    cases wire with
    | true => rfl
    | false => exact absurd (readKey_false property) (unread property listed)
  · have free : ∀ property ∈ properties, readKey wire property ≠ key ∧ property.name ≠ key :=
      fun property listed => ⟨unread property listed, fun same => named ⟨property, listed, same⟩⟩
    have untaken : isTaken wire properties key = false := by
      simpa [isTaken] using free
    exact .inl (.kept free (Fields.get?_of_mem unique
      (step.mem_of_untaken untyped (mem_otherFields.mpr ⟨member, untaken, there⟩))))

/-- What is answered under a shadowed key is the answer of the property that it names. -/
theorem FieldsStep.of_shadowed (shadowed : Shadowed wire properties key) {result : Value}
    (step : FieldsStep judges wire drop properties additional fields answers)
    (found : answers.get? key = some result) :
    ∃ property ∈ properties, property.name = key ∧
      judges property.body (fields.lookup (readKey wire property)) (.accepted result) := by
  rcases step.origin (Fields.mem_of_get? found) with
    ⟨property, listed, named, _, judged⟩ | ⟨value, other, _⟩
  · exact ⟨property, listed, named, judged⟩
  · obtain ⟨property, listed, named⟩ := shadowed.named
    have taken : isTaken wire properties key = true :=
      List.any_eq_true.mpr ⟨property, listed, by simp [named]⟩
    cases taken.symm.trans (mem_otherFields.mp other).2.1

end Validator

namespace Context

variable {context : Context} {schema : Schema} {node : Nat} {properties : List (Property Schema)}
  {additional : Additional Schema}

/-- Where unknown fields fail and no schema is given for them, every field that is there is
accounted for in what an object type answers, unless wire names are read and its key is shadowed:
then the answer has under the key only what the property of that name answered. -/
theorem fields_accounted (strict : context.settings.unknownField = .fail)
    (shaped : context.shape schema = .object node properties additional)
    (names : (Property.names properties).Nodup) (untyped : additional = .keep ∨ additional = .deny)
    {content : Identity} {fields : Fields Value} {tags : Tags} {answer : Value}
    (distinct : fields.Distinct)
    (judged : context.Judges schema (.object content fields tags) (.accepted answer)) :
    let wire := context.settings.convertFromNetwork && !tags.has schema
    ∃ (place : Identity) (answers : Fields Value),
      answer = .object place answers (tags.insert schema) ∧
      ∀ key value, (key, value) ∈ fields → value.isUndefined = false →
        Validator.Accounted context.Judges wire properties answers key value ∨
          (Validator.Shadowed wire properties key ∧
            ∀ result, answers.get? key = some result → ∃ property ∈ properties,
              property.name = key ∧ context.Judges property.body
                (fields.lookup (Validator.readKey wire property)) (.accepted result)) := by
  obtain ⟨place, answers, rfl, step⟩ := accepted_fields shaped names judged
  rw [strict] at step
  refine ⟨place, answers, rfl, fun key value member there => ?_⟩
  refine (step.accounted names distinct untyped member there).imp_right fun shadowed => ?_
  exact ⟨shadowed, fun result => step.of_shadowed shadowed⟩

end Context

/-! ## An object type with a renamed property -/

namespace Parcels

/-- A parcel says its kind, which goes by another name on the wire. -/
def properties : List (Property Schema) :=
  [⟨"kindName", true, some "kind_name", .string 2 {}⟩]

/-- Parcels hold nothing else. -/
def parcel : Schema :=
  .object 1 properties .deny

/-- What judges parcels from the network. -/
def context : Context :=
  ⟨fun _ => .unknown, fun _ => none, .fromNetwork⟩

/-- A parcel that arrives with its kind under both names. -/
def arrived : Fields Value :=
  [("kind_name", .string "a"), ("kindName", .string "b")]

/-- What is answered for it. -/
def unpacked : Fields Value :=
  [("kindName", .string "a")]

/-- The parcel is accepted as it is unpacked. -/
theorem arrived_judged : context.Judges parcel (.object (.run 0) arrived [])
    (.accepted (.object (.run 0) unpacked [parcel])) :=
  ⟨4, .run 0, rfl⟩

/-- The kind under its wire name is answered under its own. -/
theorem arrived_accounted :
    Validator.Accounted context.Judges true properties unpacked "kind_name" (.string "a") := by
  have distinct : arrived.Distinct := by simp [arrived, Fields.Distinct, Fields.keys]
  obtain ⟨place, answers, same, each⟩ :=
    Context.fields_accounted rfl rfl (by decide) (.inr rfl) distinct arrived_judged
  obtain ⟨rfl, rfl, _⟩ := Value.object.inj same
  rcases each "kind_name" _ (.head _) rfl with accounted | ⟨shadowed, _⟩
  · exact accounted
  · exact absurd rfl (shadowed.unread _ (.head _))

/-- The kind under its own name is lost, though parcels hold nothing that is not declared. -/
theorem arrived_lost :
    context.Judges parcel (.object (.run 0) arrived [])
        (.accepted (.object (.run 0) unpacked [parcel])) ∧
      ("kindName", .string "b") ∈ arrived ∧
      ¬ Validator.Accounted context.Judges true properties unpacked "kindName" (.string "b") := by
  refine ⟨arrived_judged, .tail _ (.head _), ?_⟩
  rintro (⟨⟨property, member, reads⟩, _⟩ | ⟨free, _⟩)
  · obtain rfl := List.mem_singleton.mp member
    exact absurd reads (by decide)
  · exact (free _ (.head _)).2 rfl

end Parcels

end Conform
