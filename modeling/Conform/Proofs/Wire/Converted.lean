import Conform.Proofs.Wire.Objects

/-!
# Converted objects

An object type that judges an object leaves its tag, fields that all have values, and nothing
under the wire names that it reads. Later object types keep it so. What a value without tags is
answered with is therefore converted, at every depth, by the object types that its tags tell.
-/

namespace Conform

open Validator (readKey isTaken forbiddenKeys FieldsStep)

namespace Context

variable (context : Context)

/-- An object type among the tags declares a property of the name. -/
def Declares (tags : Tags) (name : String) : Prop :=
  ∃ judge ∈ tags, ∃ node properties additional,
    context.shape judge = .object node properties additional ∧
      ∃ property ∈ properties, property.name = name

/-- The object types among the tags have converted the fields: keys are distinct, every field has
a value, and what lies under the wire name of a renamed property is a property by that name. -/
structure ConvertedFields (fields : Fields Value) (tags : Tags) : Prop where
  distinct : fields.Distinct
  filled : ∀ judge ∈ tags, ∀ node properties additional,
    context.shape judge = .object node properties additional →
    ∀ entry ∈ fields, entry.2.isUndefined = false
  read : ∀ judge ∈ tags, ∀ node properties additional,
    context.shape judge = .object node properties additional → ∀ property ∈ properties,
    property.Renamed → readKey true property ∈ fields.keys →
      context.Declares tags (readKey true property)

/-- An object is converted by the object types among its tags. -/
def Converted : Value → Prop
  | .object _ fields tags => context.ConvertedFields fields tags
  | _ => True

variable {context} {value answer : Value} {schema : Schema} {tags tags' : Tags}
  {fields answers : Fields Value}

/-- More tags declare more. -/
theorem Declares.more {name : String} (declares : context.Declares tags name)
    (more : tags ⊆ tags') : context.Declares tags' name := by
  obtain ⟨judge, tagged, declared⟩ := declares
  exact ⟨judge, more tagged, declared⟩

/-- Scalars and objects without tags and with distinct keys are converted. -/
theorem converted_of_bare (bare : value.Bare) : context.Converted value := by
  cases value with
  | object content fields tags =>
    obtain rfl : tags = [] := bare.untagged
    exact ⟨bare.keyed, fun _ tagged => (nomatch tagged), fun _ tagged => (nomatch tagged)⟩
  | _ => trivial

/-- What is converted has distinct keys. -/
theorem Converted.keyed (converted : context.Converted value) : value.Keyed := by
  cases value with
  | object content fields tags => exact ConvertedFields.distinct converted
  | _ => trivial

/-- The tag of a name that stands for no container changes no object. -/
theorem Converted.named {ref : NamedRef} (other : (context.definitions ref).isContainer = false)
    (converted : context.Converted value) :
    context.Converted (value.withTags [.named ref]) := by
  cases value with
  | object content fields tags =>
    obtain ⟨distinct, filled, read⟩ : context.ConvertedFields fields tags := converted
    refine ⟨distinct, ?_, ?_⟩
    · intro judge tagged node properties additional shaped
      exact filled judge (tagged_of_insert_named other shaped tagged) _ _ _ shaped
    · intro judge tagged node properties additional shaped property listed renamed inside
      refine (read judge (tagged_of_insert_named other shaped tagged) _ _ _ shaped property listed
        renamed inside).more ?_
      exact fun tag member => (Tags.mem_insert _ _ _).mpr (.inl member)
  | _ => trivial

section

variable {node : Nat} {properties : List (Property Schema)} {additional : Additional Schema}
  {judges : Schema → Value → Verdict → Prop}

/-- An object type converts the fields that it answers. -/
theorem ConvertedFields.answered
    (shaped : context.shape schema = .object node properties additional)
    (names : (Property.names properties).Nodup) (converted : context.ConvertedFields fields tags)
    (present : ∀ body ∈ properties.map Property.body ++ additional.bodies, ∀ item answer,
      judges body item (.accepted answer) → answer.isUndefined = item.isUndefined)
    (step : FieldsStep judges (!tags.has schema) false properties additional fields answers) :
    context.ConvertedFields answers (tags.insert schema) := by
  have own : schema ∈ tags.insert schema := (Tags.mem_insert _ _ _).mpr (.inr rfl)
  have more : tags ⊆ tags.insert schema := fun tag member =>
    (Tags.mem_insert _ _ _).mpr (.inl member)
  refine ⟨step.distinct names converted.distinct, ?_, ?_⟩
  · intro _ _ _ _ _ _ entry member
    rcases step.origin member with
      ⟨property, listed, _, there, judged⟩ | ⟨item, other, ⟨_, same⟩ | ⟨body, typed, judged⟩⟩
    · rw [present _ (additional.declared_mem listed) _ _ judged]
      exact there
    · rw [same]
      exact (Validator.mem_otherFields.mp other).2.2
    · rw [present _ (by rw [typed]; exact Additional.each_mem properties rfl) _ _ judged]
      exact (Validator.mem_otherFields.mp other).2.2
  · intro judge tagged node' properties' additional' shaped' property listed renamed inside
    obtain ⟨answer, inside⟩ := Fields.exists_mem_of_mem_keys inside
    rcases step.origin inside with ⟨declared, among, named, _⟩ | ⟨item, other, _⟩
    · exact ⟨schema, own, node, properties, additional, shaped, declared, among, named⟩
    · obtain ⟨given, untaken, _⟩ := Validator.mem_otherFields.mp other
      rcases (Tags.mem_insert _ _ _).mp tagged with before | rfl
      · exact (converted.read judge before _ _ _ shaped' property listed renamed
          (Fields.mem_keys given)).more more
      · cases shaped'.symm.trans shaped
        -- what the type itself left under a wire name, it did not read this time
        cases known : tags.has judge with
        | true =>
          exact (converted.read judge ((Tags.has_eq_true_iff _ _).mp known) _ _ _ shaped' property
            listed renamed (Fields.mem_keys given)).more more
        | false =>
          rw [known] at untaken
          cases untaken.symm.trans (Validator.isTaken_of_mem listed (.inl rfl))

end

variable (network : context.settings = .fromNetwork)

include network

/-- The answer to a converted value is converted. -/
theorem answer_converted (sound : context.Sound schema)
    (converted : value.Throughout context.Converted)
    (judged : context.Judges schema value (.accepted answer)) :
    answer.Throughout context.Converted := by
  obtain ⟨verbatim, wired, lone, keep⟩ := Options.wired_of_network network
  refine accepted_induction (motive := fun _ value answer =>
    value.Throughout context.Converted → answer.Throughout context.Converted) ?_ sound sound judged
    converted
  clear sound converted judged
  intro schema value answer sound step converted
  cases step with
  | leaf leaf judged =>
    rcases leaf_answer leaf sound.here.knownFormats judged with rfl | ⟨_, loose⟩
    · exact converted
    · exact absurd verbatim loose
  | items place shape found count judged =>
    obtain ⟨content, tags, rfl⟩ := Validator.itemsOf?_eq_some lone found
    cases found
    refine Value.throughout_array_iff.mpr ⟨trivial, fun answer inside => ?_⟩
    obtain ⟨item, member, part⟩ := forall₂_mem_right judged inside
    exact part.2.2 answer rfl (converted.item member)
  | @fields _ _ _ _ fields answers tags place shape object judged =>
    subst object
    have names : (context.shape schema).DistinctNames :=
      (sound.reached (reaches_shape context schema)).here.distinctNames
    rw [shape] at names
    rw [wired, keep, Bool.true_and] at judged
    refine Value.throughout_object_iff.mpr ⟨?_, fun entry inside => ?_⟩
    · exact ConvertedFields.answered shape names converted.here
        (fun _ _ _ _ part => answer_isUndefined verbatim part.1 part.2.1) judged
    · rcases judged.origin inside with
        ⟨property, _, _, there, part⟩ | ⟨item, other, ⟨_, same⟩ | ⟨body, _, part⟩⟩
      · exact part.2.2 _ rfl (converted.field (Fields.mem_of_lookup there))
      · rw [same]
        exact converted.field (Validator.mem_otherFields.mp other).1
      · exact part.2.2 _ rfl (converted.field (Validator.mem_otherFields.mp other).1)
  | union shape judged =>
    obtain ⟨_, _, _, _, kept⟩ := judged.accepted
    exact kept answer rfl converted
  | intersection shape judged =>
    subst shape
    refine judged.preserves converted (List.nil_subset _) (fun component member item answer held
      part => ⟨part.2.2 answer rfl held, ?_⟩)
    exact answer_grows verbatim (sound.facet member) part.2.1
  | named shape other judged tagged =>
    subst shape
    obtain ⟨first, rfl, rfl⟩ := accepted_of_map tagged
    have kept := judged.2.2 first rfl converted
    exact kept.withTags (kept.here.named other)

end Context

end Conform
