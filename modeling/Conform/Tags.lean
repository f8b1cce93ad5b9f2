import Conform.Schema.Resolve

/-!
# Type tags

The schemas that a container is known to satisfy, in the order in which they became
known. Tags are compared by identity and are only ever added.
-/

namespace Conform

/-- Known schemas in order. -/
abbrev Tags :=
  List Schema

namespace Tags

/-- Whether the schema is among the tags. -/
def has (tags : Tags) (schema : Schema) : Bool :=
  tags.contains schema

/-- Adds a schema that is not yet among the tags. -/
def insert (tags : Tags) (schema : Schema) : Tags :=
  if tags.has schema then tags else tags ++ [schema]

/-- Adds schemas in order. -/
def merge (tags : Tags) (schemas : List Schema) : Tags :=
  schemas.foldl insert tags

/-- The tags as a set of quoted texts. -/
def summary (tags : Tags) : String :=
  "\x7b" ++ String.intercalate ", " (tags.map (fun schema => Quoted.encode schema.text)) ++ "\x7d"

/-- A tag is there when it is one of the tags. -/
theorem has_eq_true_iff (tags : Tags) (schema : Schema) :
    tags.has schema = true ↔ schema ∈ tags := by
  simp [has]

/-- Adding a schema makes it a tag and keeps the others. -/
theorem mem_insert (tags : Tags) (schema other : Schema) :
    other ∈ tags.insert schema ↔ other ∈ tags ∨ other = schema := by
  unfold insert
  split
  · next known =>
    constructor
    · exact Or.inl
    · rintro (member | rfl)
      · exact member
      · exact (has_eq_true_iff _ _).1 known
  · simp

/-- Merging adds exactly the schemas given. -/
theorem mem_merge (tags : Tags) (schemas : List Schema) (other : Schema) :
    other ∈ tags.merge schemas ↔ other ∈ tags ∨ other ∈ schemas := by
  induction schemas generalizing tags with
  | nil => simp [merge]
  | cons schema rest ih =>
    rw [merge, List.foldl_cons]
    change other ∈ (tags.insert schema).merge rest ↔ _
    rw [ih, mem_insert, List.mem_cons, or_assoc]

/-- Tags that are there already are not added again. -/
theorem merge_of_subset {tags : Tags} {schemas : List Schema} (known : schemas ⊆ tags) :
    tags.merge schemas = tags := by
  induction schemas with
  | nil => rfl
  | cons schema rest ih =>
    obtain ⟨here, later⟩ := List.cons_subset.mp known
    have same : tags.insert schema = tags := by
      rw [insert, if_pos ((has_eq_true_iff _ _).mpr here)]
    rw [merge, List.foldl_cons, same]
    exact ih later

/-- Tags stay distinct. -/
theorem nodup_insert {tags : Tags} (distinct : tags.Nodup) (schema : Schema) :
    (tags.insert schema).Nodup := by
  unfold insert
  split
  · exact distinct
  · next unknown =>
    rw [List.nodup_append]
    refine ⟨distinct, by simp, ?_⟩
    intro left hleft right hright
    simp only [List.mem_singleton] at hright
    subst hright
    intro equal
    exact unknown ((has_eq_true_iff _ _).2 (equal ▸ hleft))

/-- The earlier tags come first. -/
theorem isPrefix_insert (tags : Tags) (schema : Schema) : tags <+: tags.insert schema := by
  unfold insert
  split
  · exact List.prefix_rfl
  · exact List.prefix_append _ _

/-- Tags that are merged stay distinct. -/
theorem nodup_merge {tags : Tags} (distinct : tags.Nodup) (schemas : List Schema) :
    (tags.merge schemas).Nodup := by
  induction schemas generalizing tags with
  | nil => exact distinct
  | cons schema rest ih => exact ih (nodup_insert distinct schema)

/-- Merging appends. -/
theorem isPrefix_merge (tags : Tags) (schemas : List Schema) : tags <+: tags.merge schemas := by
  induction schemas generalizing tags with
  | nil => exact List.prefix_rfl
  | cons schema rest ih => exact (isPrefix_insert tags schema).trans (ih (tags.insert schema))

end Tags

end Conform
