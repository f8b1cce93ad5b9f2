import Conform.Proofs.Attempt.Basic
import Mathlib.Data.List.Basic

/-!
# Discriminators are stable

The discriminator of a union depends on definitions only by way of the names that its
options reach. Once these stand for what they will stand for, further definitions do not
change it.
-/

namespace Conform

namespace Schema

variable {earlier later : Definitions} {schema : Schema}

/-- Every name that the schema reaches stood earlier for what it stands for later. -/
def Stable (earlier later : Definitions) (schema : Schema) : Prop :=
  schema.Within later (fun ref => earlier ref = later ref)

namespace Stable

/-- Parts of a stable schema are stable. -/
theorem part {inner : Schema} (stable : schema.Stable earlier later)
    (member : inner ∈ schema.parts later) : inner.Stable earlier later :=
  Throughout.part stable member

/-- Facets of a stable schema are stable. -/
theorem facet {inner : Schema} (stable : schema.Stable earlier later)
    (member : inner ∈ schema.facets later) : inner.Stable earlier later :=
  Throughout.facet stable member

/-- Contents of a stable schema are stable. -/
theorem content {inner : Schema} (stable : schema.Stable earlier later)
    (member : inner ∈ schema.contents) : inner.Stable earlier later :=
  stable.part (List.mem_append_right _ member)

/-- What is found behind the names is the same, and stable. -/
theorem follow (stable : schema.Stable earlier later) (hops : Nat) :
    schema.follow earlier hops = Schema.follow later hops schema ∧
      (Schema.follow later hops schema).Stable earlier later := by
  induction hops generalizing schema with
  | zero => exact ⟨rfl, throughout_of_closed [.unknown] (by simp [parts, facets, contents])
      (by simp) (.head _)⟩
  | succ hops ih =>
    cases schema with
    | named ref =>
      have same : earlier ref = later ref := stable.here ref rfl
      rw [Schema.follow, Schema.follow, same]
      exact ih (stable.facet definition_mem_facets)
    | _ => exact ⟨rfl, stable⟩

/-- A stable schema is resolved alike by later definitions. -/
theorem resolve_eq (stable : schema.Stable earlier later) :
    schema.resolve earlier = schema.resolve later :=
  (stable.follow aliasLimit).1

/-- What a stable schema is resolved to is stable. -/
theorem resolve (stable : schema.Stable earlier later) :
    (schema.resolve later).Stable earlier later :=
  (stable.follow aliasLimit).2

/-- A stable schema has the same literals by later definitions. -/
theorem literals?_eq (stable : schema.Stable earlier later) :
    schema.literals? earlier = schema.literals? later := by
  rw [literals?, literals?, stable.resolve_eq]

end Stable

/-- Stable options have the same literals by later definitions. -/
theorem unionLiterals?_congr {options : List Schema}
    (stable : ∀ option ∈ options, option.Stable earlier later) (known : List Literal) :
    unionLiterals? earlier known options = unionLiterals? later known options := by
  induction options generalizing known with
  | nil => rfl
  | cons option rest ih =>
    rw [unionLiterals?, unionLiterals?, (stable option (.head _)).literals?_eq]
    cases option.literals? later with
    | none => rfl
    | some literals => exact ih (fun option member => stable option (.tail _ member)) _

/-- A stable schema restricts a property to the same literals by later definitions. -/
theorem Stable.propertyLiterals?_eq (stable : schema.Stable earlier later) :
    schema.propertyLiterals? earlier = schema.propertyLiterals? later := by
  have resolved := stable.resolve
  rw [propertyLiterals?, propertyLiterals?, stable.literals?_eq, stable.resolve_eq]
  cases schema.literals? later with
  | some literals => rfl
  | none =>
    cases found : schema.resolve later with
    | union node options =>
      rw [found] at resolved
      have same : unionLiterals? earlier [] options = unionLiterals? later [] options :=
        unionLiterals?_congr (fun option member => resolved.facet member) []
      simp only [same]
    | _ => rfl

/-- Properties with stable bodies have the same candidates by later definitions. -/
theorem objectCandidates_congr {properties : List (Property Schema)}
    (stable : ∀ property ∈ properties, property.body.Stable earlier later) :
    objectCandidates earlier properties = objectCandidates later properties := by
  refine List.filterMap_congr (fun property member => ?_)
  rw [(stable property (List.mem_of_mem_filter member)).propertyLiterals?_eq]

/-- A stable schema has the same candidates by later definitions, at every depth. -/
theorem Stable.candidatesWithin_eq (stable : schema.Stable earlier later) (levels : Nat) :
    schema.candidatesWithin earlier levels = schema.candidatesWithin later levels := by
  induction levels generalizing schema with
  | zero => rfl
  | succ levels ih =>
    have resolved := stable.resolve
    rw [candidatesWithin, candidatesWithin, stable.resolve_eq]
    cases found : schema.resolve later with
    | object node properties additional =>
      rw [found] at resolved
      exact objectCandidates_congr (fun property member =>
        resolved.content (body_mem_contents member))
    | intersection node components =>
      rw [found] at resolved
      refine List.foldl_ext _ _ _ (fun known component member => ?_)
      rw [ih (resolved.facet member)]
    | union node branches =>
      rw [found] at resolved
      cases branches with
      | nil => rfl
      | cons first branches =>
        simp only [ih (resolved.facet (.head _))]
        refine List.foldl_ext _ _ _ (fun common branch member => ?_)
        rw [ih (resolved.facet (.tail _ member))]
    | _ => rfl

end Schema

variable {earlier later : Definitions}

/-- Stable options have the discriminator later that they had earlier. -/
theorem Discriminator.find?_congr {options : List Schema}
    (stable : ∀ option ∈ options, option.Stable earlier later) :
    Discriminator.find? earlier options = Discriminator.find? later options := by
  have same : numbered earlier options = numbered later options := by
    have each : options.map (Schema.candidates earlier) = options.map (Schema.candidates later) :=
      List.map_congr_left (fun option member =>
        (stable option member).candidatesWithin_eq Schema.nestingLevels)
    rw [numbered, numbered, each]
  rw [find?, find?, same]

/-- The unions of a stable schema are decided as they were. -/
theorem Schema.Stable.decided {schema : Schema} (stable : schema.Stable earlier later) :
    schema.Decided earlier later := by
  intro node reached
  have there : node.Stable earlier later := by
    induction reached with
    | refl => exact stable
    | tail _ step ih => exact Within.part_unnamed ih step
  rintro number choices rfl
  exact Discriminator.find?_congr (fun option member => there.facet member)

end Conform
