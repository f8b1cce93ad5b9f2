import Conform.Proofs.Wire.Names

/-!
# Fields that are written

Encoding writes each field that has a value under one wire key, and a field that comes later
takes the place of an earlier one under the same key. The wire keys of declared properties are
distinct, and other fields keep their keys, so fields get in each other's way only where a field
that is not declared lies under the wire key of a property that is there as well. An object that
was read by wire names holds no such field: the key would have been read for the property.
-/

namespace Conform

open Validator (readKey Uncontested)

namespace Value

/-- The document has one field for each field that has a value, under its wire key. -/
structure WritesEach (definitions : Definitions) (tags : Tags) (fields : Fields Value)
    (document : Json) : Prop where
  whole : document = .object (fields.present.map fun entry =>
    (wireKey definitions tags entry.1, entry.2.toWire definitions))
  apart : (fields.present.keys.map (wireKey definitions tags)).Nodup

/-- Every field is written when no two of them have one wire key. -/
theorem writesEach_iff (definitions : Definitions) (place : Identity) (fields : Fields Value)
    (tags : Tags) :
    WritesEach definitions tags fields ((Value.object place fields tags).toWire definitions) ↔
      (fields.present.keys.map (wireKey definitions tags)).Nodup := by
  refine ⟨WritesEach.apart, fun apart => ⟨?_, apart⟩⟩
  rw [toWire, toWireFields_eq_present, Fields.ofList_of_distinct]
  simpa [Fields.Distinct, Fields.keys, Function.comp_def] using apart

end Value

namespace Context

variable {context : Context} {schema : Schema} {node : Nat} {properties : List (Property Schema)}
  {additional : Additional Schema}

/-- An object type writes every field of what it answered for a value without tags exactly when
no other field lies under the wire key of a property that is there, and this is so whenever wire
names were read. -/
theorem answer_written (shaped : context.shape schema = .object node properties additional)
    (names : (Property.names properties).Nodup)
    (wireKeys : (properties.map (readKey true)).Nodup) {content : Identity} {fields : Fields Value}
    {answer : Value} (distinct : fields.Distinct)
    (judged : context.Judges schema (.object content fields []) (.accepted answer)) :
    ∃ (place : Identity) (answers : Fields Value), answer = .object place answers [schema] ∧
      (Value.WritesEach context.definitions [schema] answers (answer.toWire context.definitions) ↔
        Uncontested properties answers.present.keys) ∧
      (context.settings.convertFromNetwork = true →
        Uncontested properties answers.present.keys) := by
  obtain ⟨place, answers, rfl, step⟩ := accepted_fields shaped names judged
  have single : [schema].filterMap (Schema.properties? context.definitions) =
      List.replicate 1 properties := by simp [properties?_of_shape shaped]
  have fewer : answers.present.keys.Sublist answers.keys := Fields.present_keys_sublist answers
  have unique : answers.present.keys.Nodup := (step.distinct names distinct).sublist fewer
  refine ⟨place, answers, rfl, ?_, fun wired => ?_⟩
  · have tags : Tags.insert [] schema = [schema] := rfl
    rw [tags, Value.writesEach_iff, List.nodup_map_iff_inj_on unique,
      Validator.uncontested_iff_rename_injective names wireKeys]
    simp only [Value.wireKey_of_replicate single]
  · rw [wired] at step
    exact step.uncontested.subset fewer.subset

end Context

/-! ## An object type that keeps other fields -/

namespace Tickets

/-- A ticket has a number, which goes by another name on the wire. -/
def properties : List (Property Schema) :=
  [⟨"number", true, some "no", .string 2 {}⟩]

/-- Tickets hold whatever else they are given. -/
def ticket : Schema :=
  .object 1 properties .keep

/-- What judges tickets by their own names. -/
def context : Context :=
  ⟨fun _ => .unknown, fun _ => none, .strict⟩

/-- A ticket with a remark under the key. -/
def remarked (key : String) : Fields Value :=
  [("number", .string "12"), (key, .string "void")]

/-- A ticket and its remark are written under two keys. -/
theorem remarked_written :
    Value.WritesEach context.definitions [ticket] (remarked "note")
      ((Value.object (.run 0) (remarked "note") [ticket]).toWire context.definitions) := by
  have distinct : (remarked "note").Distinct := by simp [remarked, Fields.Distinct, Fields.keys]
  have judged : context.Judges ticket (.object (.run 0) (remarked "note") [])
      (.accepted (.object (.run 0) (remarked "note") [ticket])) := ⟨4, .run 0, rfl⟩
  obtain ⟨place, answers, same, each, _⟩ :=
    Context.answer_written rfl (by decide) (by decide) distinct judged
  obtain ⟨rfl, rfl, _⟩ := Value.object.inj same
  refine each.mpr ?_
  rintro key member undeclared property listed _ rfl
  obtain rfl := List.mem_singleton.mp listed
  exact absurd member (by decide)

/-- A remark under the wire key of the number takes its place. -/
theorem number_lost :
    let answer : Value := .object (.run 0) (remarked "no") [ticket]
    context.Judges ticket (.object (.run 0) (remarked "no") []) (.accepted answer) ∧
      answer.toWire context.definitions = .object [("no", .string "void")] ∧
      ¬ Value.WritesEach context.definitions [ticket] (remarked "no")
        (answer.toWire context.definitions) := by
  refine ⟨⟨4, .run 0, rfl⟩, rfl, fun written => ?_⟩
  exact absurd written.apart (by decide)

end Tickets

end Conform
