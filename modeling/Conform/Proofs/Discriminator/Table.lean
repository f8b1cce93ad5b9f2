import Conform.Proofs.Discriminator.Choice
import Conform.Proofs.Lists

/-!
# The table of a discriminator

A table gives each literal at most one variant. Building it enters the literals of one
variant after the other, and what was entered stays. So in a finished table every literal
that a variant admits at the key leads to that variant, and by that to no other.
-/

namespace Conform

namespace Candidate

/-- The first candidate for a key. -/
def first? (key : String) (candidates : List Candidate) : Option Candidate :=
  candidates.find? (fun candidate => candidate.key == key)

/-- The candidate for a key admits the literal. -/
def Admits (key : String) (candidates : List Candidate) (literal : Literal) : Prop :=
  ∃ candidate, first? key candidates = some candidate ∧ literal.isIn candidate.values = true

variable {key : String} {candidates : List Candidate} {candidate : Candidate}

/-- The first candidate for a key is a candidate for it. -/
theorem mem_of_first? (found : first? key candidates = some candidate) :
    candidate ∈ candidates ∧ candidate.key = key :=
  ⟨List.mem_of_find?_eq_some found, by simpa using List.find?_some found⟩

/-- A literal is admitted at a key when the first candidate for the key lists it. -/
theorem admits_iff (found : first? key candidates = some candidate) {literal : Literal} :
    Admits key candidates literal ↔ literal.isIn candidate.values = true := by
  simp [Admits, found]

end Candidate

namespace Discriminator

/-- The variant that a table gives to a literal. -/
def owner? (table : List (Literal × Nat)) (literal : Literal) : Option Nat :=
  (table.find? (fun entry => entry.1.same literal)).map Prod.snd

/-- The variant of a literal is the one that owns it in the table. -/
theorem variantOf?_eq_owner? (discriminator : Discriminator) (literal : Literal) :
    discriminator.variantOf? literal = owner? discriminator.table literal :=
  rfl

/-- Literals that are the same have the same variant. -/
theorem owner?_congr (table : List (Literal × Nat)) {literal other : Literal}
    (same : literal.same other = true) : owner? table literal = owner? table other := by
  have tests : (fun entry : Literal × Nat => entry.1.same literal) =
      fun entry => entry.1.same other := by
    funext entry
    rw [Bool.eq_iff_iff]
    constructor
    · exact fun first => Literal.same_trans first same
    · exact fun first => Literal.same_trans first (Literal.same_symm literal other ▸ same)
  rw [owner?, owner?, tests]

/-- An entry that is appended counts for the literals that the table does not have. -/
theorem owner?_append (table : List (Literal × Nat)) (literal other : Literal) (variant : Nat) :
    owner? (table ++ [(literal, variant)]) other =
      (owner? table other).or (if literal.same other then some variant else none) := by
  unfold owner?
  rw [List.find?_append, List.find?_singleton]
  cases table.find? (fun entry => entry.1.same other) with
  | none => cases literal.same other <;> rfl
  | some entry => rfl

/-- A table that has taken a variant's literals gives these to the variant and the others as
before. -/
theorem owner?_enter? {variant : Nat} {table final : List (Literal × Nat)}
    {literals : List Literal} (entered : enter? variant table literals = some final)
    (literal : Literal) (owner : Nat) :
    owner? final literal = some owner ↔
      owner? table literal = some owner ∨ owner = variant ∧ literal.isIn literals = true := by
  induction literals generalizing table with
  | nil =>
    obtain rfl := Option.some.inj entered
    simp [Literal.isIn]
  | cons first rest ih =>
    rw [enter?] at entered
    rw [Literal.isIn, List.any_cons, Bool.or_eq_true]
    split at entered
    · next known holder found =>
      split at entered
      · next own =>
        subst own
        -- A literal that is the same as a known one is in the table already.
        have old : first.same literal = true → owner? table literal = some holder := by
          intro same
          rw [← owner?_congr table same, owner?, found]
          rfl
        rw [ih entered]
        constructor
        · exact Or.imp_right (And.imp_right Or.inr)
        · rintro (before | ⟨rfl, same | later⟩)
          · exact .inl before
          · exact .inl (old same)
          · exact .inr ⟨rfl, later⟩
      · cases entered
    · next unknown =>
      have new : first.same literal = true → owner? table literal = none := by
        intro same
        rw [← owner?_congr table same, owner?, unknown]
        rfl
      rw [ih entered, owner?_append, Option.or_eq_some_iff]
      constructor
      · rintro ((before | ⟨_, appended⟩) | ⟨rfl, later⟩)
        · exact .inl before
        · split at appended
          · next same => exact .inr ⟨(Option.some.inj appended).symm, .inl same⟩
          · cases appended
        · exact .inr ⟨rfl, .inr later⟩
      · rintro (before | ⟨rfl, same | later⟩)
        · exact .inl (.inl before)
        · exact .inl (.inr ⟨new same, if_pos same⟩)
        · exact .inr ⟨rfl, later⟩

/-- Literals can be entered for a variant when none belongs to another. -/
theorem exists_enter? {variant : Nat} {table : List (Literal × Nat)} {literals : List Literal}
    (free : ∀ literal ∈ literals, ∀ owner, owner? table literal = some owner → owner = variant) :
    ∃ final, enter? variant table literals = some final := by
  induction literals generalizing table with
  | nil => exact ⟨table, rfl⟩
  | cons first rest ih =>
    obtain ⟨own, others⟩ := List.forall_mem_cons.mp free
    rw [enter?]
    split
    · next known holder found =>
      rw [if_pos (own holder (by rw [owner?, found]; rfl))]
      exact ih others
    · refine ih (fun literal member owner given => ?_)
      rw [owner?_append, Option.or_eq_some_iff] at given
      rcases given with before | ⟨_, appended⟩
      · exact others literal member owner before
      · split at appended
        · exact (Option.some.inj appended).symm
        · cases appended

/-- A finished table gives a literal to the variants whose candidate for the key admits it, and
all else as before. -/
theorem owner?_tableFor? {key : String} {wireName : Option (Option String)}
    {table : List (Literal × Nat)} {tagged : List (Nat × List Candidate)}
    {wireKey : Option String} {final : List (Literal × Nat)}
    (built : tableFor? key wireName table tagged = some (wireKey, final))
    (literal : Literal) (owner : Nat) :
    owner? final literal = some owner ↔ owner? table literal = some owner ∨
      ∃ entry ∈ tagged, entry.1 = owner ∧ Candidate.Admits key entry.2 literal := by
  induction tagged generalizing wireName table with
  | nil =>
    obtain ⟨_, rfl⟩ := Prod.mk.inj (Option.some.inj built)
    simp
  | cons entry rest ih =>
    obtain ⟨variant, candidates⟩ := entry
    rw [tableFor?] at built
    split at built
    · cases built
    · next candidate found =>
      have admits : Candidate.Admits key candidates literal ↔
          literal.isIn candidate.values = true :=
        Candidate.admits_iff found
      split at built
      · split at built
        · next middle entered =>
          rw [ih built, owner?_enter? entered, List.exists_mem_cons_iff, admits, or_assoc,
            @eq_comm _ variant owner]
        · cases built
      · cases built

/-- A finished table has one wire name, and every variant has a candidate for the key under
it. -/
theorem tableFor?_wireKey {key : String} {wireName : Option (Option String)}
    {table : List (Literal × Nat)} {tagged : List (Nat × List Candidate)}
    {wireKey : Option String} {final : List (Literal × Nat)}
    (built : tableFor? key wireName table tagged = some (wireKey, final)) :
    (∀ known, wireName = some known → wireKey = known) ∧ ∀ entry ∈ tagged,
      ∃ candidate, Candidate.first? key entry.2 = some candidate ∧
        candidate.wireName = wireKey := by
  induction tagged generalizing wireName table with
  | nil =>
    obtain ⟨rfl, _⟩ := Prod.mk.inj (Option.some.inj built)
    refine ⟨?_, fun _ member => by cases member⟩
    rintro known rfl
    rfl
  | cons entry rest ih =>
    obtain ⟨variant, candidates⟩ := entry
    rw [tableFor?] at built
    split at built
    · cases built
    · next candidate found =>
      split at built
      · next same =>
        split at built
        · next middle entered =>
          obtain ⟨kept, others⟩ := ih built
          have own : wireKey = candidate.wireName := kept _ rfl
          refine ⟨?_, List.forall_mem_cons.mpr ⟨⟨candidate, found, own.symm⟩, others⟩⟩
          rintro known rfl
          exact own.trans same.symm
        · cases built
      · cases built

/-- A table can be built when every variant has a candidate for the key under one wire name and
none admits a literal of another variant. -/
theorem exists_tableFor? {key : String} {wireName : Option (Option String)}
    {table : List (Literal × Nat)} {tagged : List (Nat × List Candidate)}
    {wireKey : Option String} (named : ∀ known, wireName = some known → known = wireKey)
    (declared : ∀ entry ∈ tagged, ∃ candidate, Candidate.first? key entry.2 = some candidate ∧
      candidate.wireName = wireKey)
    (free : ∀ entry ∈ tagged, ∀ literal owner, Candidate.Admits key entry.2 literal →
      owner? table literal = some owner → owner = entry.1)
    (apart : ∀ left ∈ tagged, ∀ right ∈ tagged, ∀ literal, Candidate.Admits key left.2 literal →
      Candidate.Admits key right.2 literal → left.1 = right.1) :
    ∃ built, tableFor? key wireName table tagged = some built := by
  induction tagged generalizing wireName table with
  | nil => exact ⟨_, rfl⟩
  | cons entry rest ih =>
    obtain ⟨candidate, found, same⟩ := declared entry (.head _)
    have one : wireName.getD candidate.wireName = candidate.wireName := by
      cases known : wireName with
      | none => rfl
      | some name => exact (named name known).trans same.symm
    obtain ⟨middle, entered⟩ : ∃ middle, enter? entry.1 table candidate.values = some middle :=
      exists_enter? (fun literal member owner given =>
        free entry (.head _) literal owner ((Candidate.admits_iff found).mpr
          (List.any_eq_true.mpr ⟨literal, member, Literal.same_refl literal⟩)) given)
    rw [tableFor?, show entry.2.find? _ = _ from found]
    simp only [one, if_true, entered]
    refine ih (fun known some => (Option.some.inj some).symm.trans same)
      (fun other member => declared other (.tail _ member)) ?_
      (fun left first right second => apart left (.tail _ first) right (.tail _ second))
    intro other member literal owner admits given
    rcases (owner?_enter? entered literal owner).mp given with before | ⟨rfl, inside⟩
    · exact free other (.tail _ member) literal owner admits before
    · exact apart entry (.head _) other (.tail _ member) literal
        ((Candidate.admits_iff found).mpr inside) admits

/-- The table of a discriminator is built from the variants that are not left aside. -/
theorem find?_built {definitions : Definitions} {variants : List Schema}
    {discriminator : Discriminator} (found : find? definitions variants = some discriminator) :
    ∃ tagged, tableFor? discriminator.key none [] tagged =
        some (discriminator.wireKey, discriminator.table) ∧
      ∀ (index : Nat) (variant : Schema), variants[index]? = some variant →
        index ∈ discriminator.rest ∨ (index, variant.candidates definitions) ∈ tagged := by
  simp only [find?] at found
  split at found
  · cases found
  obtain ⟨key, _, built⟩ := List.exists_of_findSome?_eq_some found
  obtain ⟨⟨wireKey, table⟩, entered, rfl⟩ := Option.map_eq_some_iff.mp built
  refine ⟨_, entered, fun index variant listed => ?_⟩
  have among : (index, variant.candidates definitions) ∈ numbered definitions variants := by
    refine List.mem_map.mpr ⟨(variant.candidates definitions, index), ?_, rfl⟩
    rw [List.mem_zipIdx_iff_getElem?, List.getElem?_map, listed]
    rfl
  cases empty : (variant.candidates definitions).isEmpty with
  | true =>
    exact .inl (List.mem_map.mpr ⟨_, List.mem_filter.mpr ⟨among, by simpa using empty⟩, rfl⟩)
  | false => exact .inr (List.mem_filter.mpr ⟨among, by simpa using empty⟩)

/-- A discriminator gives each literal that a variant admits at its key to that variant, unless
the variant is left aside. -/
theorem find?_spec {definitions : Definitions} {variants : List Schema}
    {discriminator : Discriminator} (found : find? definitions variants = some discriminator)
    {index : Nat} {variant : Schema} (listed : variants[index]? = some variant)
    (tagged : variant ∉ discriminator.aside variants) :
    ∃ candidate ∈ variant.candidates definitions, candidate.key = discriminator.key ∧
      ∀ literal, literal.isIn candidate.values = true →
        discriminator.variantOf? literal = some index := by
  obtain ⟨numbered, entered, among⟩ := find?_built found
  have inside := (among index variant listed).resolve_left
    (fun left => tagged (List.mem_filterMap.mpr ⟨index, left, listed⟩))
  obtain ⟨candidate, own, _⟩ := (tableFor?_wireKey entered).2 _ inside
  obtain ⟨member, same⟩ := Candidate.mem_of_first? own
  refine ⟨candidate, member, same, fun literal admitted => ?_⟩
  exact (owner?_tableFor? entered literal index).mpr
    (.inr ⟨_, inside, rfl, (Candidate.admits_iff own).mpr admitted⟩)

/-- The variants left aside are those without candidates, in their order. -/
theorem aside_eq_filter {definitions : Definitions} {variants : List Schema}
    {discriminator : Discriminator} (found : find? definitions variants = some discriminator) :
    discriminator.aside variants =
      variants.filter (fun variant => (variant.candidates definitions).isEmpty) := by
  simp only [find?] at found
  split at found
  · cases found
  obtain ⟨key, _, built⟩ := List.exists_of_findSome?_eq_some found
  obtain ⟨_, _, rfl⟩ := Option.map_eq_some_iff.mp built
  have numbers : numbered definitions variants =
      variants.zipIdx.map (fun entry => (entry.2, entry.1.candidates definitions)) := by
    simp [numbered, List.zipIdx_map, Function.comp_def]
  have listed : ∀ entry ∈ variants.zipIdx, variants[entry.2]? = some entry.1 :=
    fun entry member => List.mem_zipIdx_iff_getElem?.mp member
  rw [aside, numbers, List.filter_map, List.map_map, List.filterMap_map]
  calc (variants.zipIdx.filter (fun entry => (entry.1.candidates definitions).isEmpty)).filterMap
        (fun entry => variants[entry.2]?)
      = (variants.zipIdx.filter (fun entry => (entry.1.candidates definitions).isEmpty)).map
          Prod.fst := by
        rw [← List.filterMap_eq_map]
        exact List.filterMap_congr
          (fun entry member => listed entry (List.mem_of_mem_filter member))
    _ = variants.filter (fun variant => (variant.candidates definitions).isEmpty) := by
        conv_rhs => rw [← List.zipIdx_map_fst 0 variants, List.filter_map]
        rfl

/-- Every variant is left aside, or has a candidate for the key under its wire name. -/
theorem find?_candidate {definitions : Definitions} {variants : List Schema}
    {discriminator : Discriminator} (found : find? definitions variants = some discriminator)
    {variant : Schema} (member : variant ∈ variants) :
    variant ∈ discriminator.aside variants ∨
      ∃ candidate ∈ variant.candidates definitions, candidate.key = discriminator.key ∧
        candidate.wireName = discriminator.wireKey := by
  obtain ⟨tagged, entered, among⟩ := find?_built found
  obtain ⟨index, listed⟩ := List.getElem?_of_mem member
  rcases among index variant listed with left | inside
  · exact .inl (List.mem_filterMap.mpr ⟨index, left, listed⟩)
  · obtain ⟨candidate, own, wire⟩ := (tableFor?_wireKey entered).2 _ inside
    obtain ⟨member, same⟩ := Candidate.mem_of_first? own
    exact .inr ⟨candidate, member, same, wire⟩

end Discriminator

end Conform
