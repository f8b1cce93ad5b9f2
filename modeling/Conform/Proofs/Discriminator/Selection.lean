import Conform.Proofs.Discriminator.Table

/-!
# Which key discriminates

A key qualifies when every variant with candidates has one for it, all under one wire name,
and no two variants admit a literal in common. A table can be built for a key exactly when it
qualifies, whatever keys were tried before, so the discriminator is that of the first key that
does. Its table is no more than the candidates say.
-/

namespace Conform

namespace Schema

/-- A variant with candidates is tagged. -/
def tagged (definitions : Definitions) (variant : Schema) : Bool :=
  !(variant.candidates definitions).isEmpty

/-- The candidate of a variant for a key. -/
def candidate? (definitions : Definitions) (key : String) (variant : Schema) : Option Candidate :=
  Candidate.first? key (variant.candidates definitions)

end Schema

namespace Discriminator

variable (definitions : Definitions) (variants : List Schema)

/-- A variant and a literal that its candidate for a key admits. -/
def Assigns (key : String) (literal : Literal) (index : Nat) : Prop :=
  ∃ variant candidate, variants[index]? = some variant ∧
    variant.candidate? definitions key = some candidate ∧ literal.isIn candidate.values = true

/-- A key that can decide between the variants. -/
structure Qualifies (key : String) : Prop where
  /-- Every tagged variant has a candidate for the key. -/
  declared : ∀ variant ∈ variants, variant.tagged definitions = true →
    ∃ candidate, variant.candidate? definitions key = some candidate
  /-- All of them have one wire name. -/
  named : ∀ left ∈ variants, ∀ right ∈ variants, ∀ candidate candidate',
    left.candidate? definitions key = some candidate →
      right.candidate? definitions key = some candidate' →
      candidate.wireName = candidate'.wireName
  /-- No two variants share a literal. -/
  apart : ∀ literal index index', Assigns definitions variants key literal index →
    Assigns definitions variants key literal index' → index = index'

/-- The keys of all candidates, variants in order and candidates in order. -/
def keys : List String :=
  variants.flatMap (fun variant => (variant.candidates definitions).map Candidate.key)

variable {definitions variants}

section

/-- The variants by their numbers. -/
theorem mem_numbered_iff {index : Nat} {candidates : List Candidate} :
    (index, candidates) ∈ numbered definitions variants ↔
      ∃ variant, variants[index]? = some variant ∧ variant.candidates definitions = candidates := by
  simp only [numbered, List.mem_map, Prod.mk.injEq, Prod.exists, List.mem_zipIdx_iff_getElem?,
    List.getElem?_map, Option.map_eq_some_iff]
  constructor
  · rintro ⟨found, number, ⟨variant, listed, rfl⟩, rfl, rfl⟩
    exact ⟨variant, listed, rfl⟩
  · rintro ⟨variant, listed, rfl⟩
    exact ⟨_, index, ⟨variant, listed, rfl⟩, rfl, rfl⟩

/-- Numbering keeps the candidates of each variant. -/
theorem numbered_map_snd (definitions : Definitions) (variants : List Schema) :
    (numbered definitions variants).map Prod.snd =
      variants.map (Schema.candidates definitions) := by
  rw [numbered, List.map_map]
  exact List.zipIdx_map_fst 0 _

/-- Variants are numbered in order. -/
theorem numbered_map_fst (definitions : Definitions) (variants : List Schema) :
    (numbered definitions variants).map Prod.fst = List.range variants.length := by
  rw [numbered, List.map_map, List.range_eq_range',
    ← List.length_map (Schema.candidates definitions)]
  exact List.zipIdx_map_snd 0 _

end

/-- The numbered variants that have candidates. -/
def taggedOf (definitions : Definitions) (variants : List Schema) : List (Nat × List Candidate) :=
  (numbered definitions variants).filter (fun entry => !entry.2.isEmpty)

/-- A number goes with the candidates of the tagged variant at its place. -/
theorem mem_taggedOf_iff {index : Nat} {candidates : List Candidate} :
    (index, candidates) ∈ taggedOf definitions variants ↔ ∃ variant,
      variants[index]? = some variant ∧ variant.tagged definitions = true ∧
        variant.candidates definitions = candidates := by
  rw [taggedOf, List.mem_filter, mem_numbered_iff]
  constructor
  · rintro ⟨⟨variant, listed, rfl⟩, some⟩
    exact ⟨variant, listed, some, rfl⟩
  · rintro ⟨variant, listed, some, rfl⟩
    exact ⟨⟨variant, listed, rfl⟩, some⟩

/-- As many variants are numbered as are tagged. -/
theorem length_taggedOf (definitions : Definitions) (variants : List Schema) :
    (taggedOf definitions variants).length = variants.countP (Schema.tagged definitions) := by
  rw [taggedOf, ← List.countP_eq_length_filter,
    show (fun entry : Nat × List Candidate => !entry.2.isEmpty) =
      (fun candidates => !candidates.isEmpty) ∘ Prod.snd from rfl,
    ← List.countP_map, numbered_map_snd, List.countP_map]
  rfl

/-- A variant that admits a literal at some key is tagged. -/
theorem assigns_iff {key : String} {literal : Literal} {index : Nat} :
    Assigns definitions variants key literal index ↔
      ∃ entry ∈ taggedOf definitions variants, entry.1 = index ∧
        Candidate.Admits key entry.2 literal := by
  constructor
  · rintro ⟨variant, candidate, listed, found, inside⟩
    have some : variant.tagged definitions = true := by
      rw [Schema.tagged, List.isEmpty_eq_false_iff_exists_mem.mpr
        ⟨candidate, (Candidate.mem_of_first? found).1⟩]
      rfl
    exact ⟨_, mem_taggedOf_iff.mpr ⟨variant, listed, some, rfl⟩, rfl, candidate, found, inside⟩
  · rintro ⟨⟨_, _⟩, member, rfl, candidate, found, inside⟩
    obtain ⟨variant, listed, _, rfl⟩ := mem_taggedOf_iff.mp member
    exact ⟨variant, candidate, listed, found, inside⟩

/-- A table can be built for a key that qualifies. -/
theorem Qualifies.exists_table {key : String} (qualifies : Qualifies definitions variants key) :
    ∃ built, tableFor? key none [] (taggedOf definitions variants) = some built := by
  have own : ∀ entry ∈ taggedOf definitions variants, ∃ variant ∈ variants, ∃ candidate,
      variant.candidate? definitions key = some candidate ∧
        Candidate.first? key entry.2 = some candidate := by
    rintro ⟨index, _⟩ member
    obtain ⟨variant, listed, some, rfl⟩ := mem_taggedOf_iff.mp member
    have inside := List.mem_of_getElem? listed
    obtain ⟨candidate, found⟩ := qualifies.declared variant inside some
    exact ⟨variant, inside, candidate, found, found⟩
  -- Without a tagged variant any wire name would do; else that of one is the name of all.
  obtain ⟨wireKey, same⟩ : ∃ wireKey, ∀ entry ∈ taggedOf definitions variants, ∃ candidate,
      Candidate.first? key entry.2 = some candidate ∧ candidate.wireName = wireKey := by
    by_cases untagged : taggedOf definitions variants = []
    · exact ⟨none, by simp [untagged]⟩
    · obtain ⟨first, member⟩ := List.exists_mem_of_ne_nil _ untagged
      obtain ⟨variant, inside, candidate, found, _⟩ := own first member
      refine ⟨candidate.wireName, fun entry listed => ?_⟩
      obtain ⟨variant', inside', candidate', found', first'⟩ := own entry listed
      exact ⟨candidate', first', qualifies.named _ inside' _ inside _ _ found' found⟩
  refine exists_tableFor? (by simp) same (by simp [owner?]) ?_
  intro left first right second literal admits admits'
  exact qualifies.apart literal _ _ (assigns_iff.mpr ⟨left, first, rfl, admits⟩)
    (assigns_iff.mpr ⟨right, second, rfl, admits'⟩)

section

variable {key : String} {wireKey : Option String} {table : List (Literal × Nat)}
  (built : tableFor? key none [] (taggedOf definitions variants) = some (wireKey, table))

include built

/-- The table gives a literal to the variant whose candidate admits it. -/
theorem owner?_built (literal : Literal) (index : Nat) :
    owner? table literal = some index ↔ Assigns definitions variants key literal index := by
  rw [owner?_tableFor? built, assigns_iff]
  simp [owner?]

/-- The wire name of the table is that of every candidate for the key. -/
theorem wireName_built {variant : Schema} (member : variant ∈ variants) {candidate : Candidate}
    (found : variant.candidate? definitions key = some candidate) :
    candidate.wireName = wireKey := by
  obtain ⟨index, listed⟩ := List.getElem?_of_mem member
  have some : variant.tagged definitions = true := by
    rw [Schema.tagged, List.isEmpty_eq_false_iff_exists_mem.mpr
      ⟨candidate, (Candidate.mem_of_first? found).1⟩]
    rfl
  obtain ⟨candidate', found', same⟩ := (tableFor?_wireKey built).2 _
    (mem_taggedOf_iff.mpr ⟨variant, listed, some, rfl⟩)
  rwa [← Option.some.inj (found.symm.trans found')] at same

/-- A key with a table qualifies. -/
theorem qualifies_of_built : Qualifies definitions variants key where
  declared variant member some := by
    obtain ⟨index, listed⟩ := List.getElem?_of_mem member
    obtain ⟨candidate, found, _⟩ := (tableFor?_wireKey built).2 _
      (mem_taggedOf_iff.mpr ⟨variant, listed, some, rfl⟩)
    exact ⟨candidate, found⟩
  named left first right second candidate candidate' found found' :=
    (wireName_built built first found).trans (wireName_built built second found').symm
  apart literal index index' assigns assigns' :=
    Option.some.inj (((owner?_built built literal index).mpr assigns).symm.trans
      ((owner?_built built literal index').mpr assigns'))

end

/-- Dropping repeated members does not change which result comes first. -/
theorem findSome?_dedupe {α β : Type} [BEq α] [LawfulBEq α] (pick? : α → Option β)
    (members seen : List α) :
    (members.foldl (fun seen member => if seen.contains member then seen else seen ++ [member])
      seen).findSome? pick? = (seen ++ members).findSome? pick? := by
  induction members generalizing seen with
  | nil => simp
  | cons member rest ih =>
    rw [List.foldl_cons, ih]
    split
    · next known =>
      rw [List.findSome?_append, List.findSome?_append, List.findSome?_cons]
      cases early : seen.findSome? pick? with
      | some result => rfl
      | none =>
        rw [List.findSome?_eq_none_iff.mp early member (List.contains_iff_mem.mp known)]
    · rw [List.append_assoc, List.singleton_append]

/-- Only tagged variants have keys. -/
theorem flatMap_taggedOf (definitions : Definitions) (variants : List Schema) :
    (taggedOf definitions variants).flatMap (fun entry => entry.2.map Candidate.key) =
      keys definitions variants := by
  have plain (lists : List (List Candidate)) :
      (lists.filter (fun candidates => !candidates.isEmpty)).flatMap (List.map Candidate.key) =
        lists.flatMap (List.map Candidate.key) := by
    induction lists with
    | nil => rfl
    | cons first rest ih =>
      cases first with
      | nil => simpa using ih
      | cons candidate further => simpa using ih
  calc (taggedOf definitions variants).flatMap (fun entry => entry.2.map Candidate.key)
      = ((taggedOf definitions variants).map Prod.snd).flatMap (List.map Candidate.key) := by
        rw [List.flatMap_map]
    _ = (((numbered definitions variants).map Prod.snd).filter
          (fun candidates => !candidates.isEmpty)).flatMap (List.map Candidate.key) := by
        rw [List.filter_map]
        rfl
    _ = keys definitions variants := by
        rw [plain, numbered_map_snd, List.flatMap_map]
        rfl

/-- The variants left aside are the untagged ones, by number. -/
def untaggedOf (definitions : Definitions) (variants : List Schema) : List Nat :=
  ((numbered definitions variants).filter (fun entry => entry.2.isEmpty)).map Prod.fst

/-- A number is untagged when the variant at its place is. -/
theorem mem_untaggedOf_iff {index : Nat} :
    index ∈ untaggedOf definitions variants ↔
      ∃ variant, variants[index]? = some variant ∧ variant.tagged definitions = false := by
  simp only [untaggedOf, List.mem_map, List.mem_filter, Prod.exists, mem_numbered_iff,
    Schema.tagged, Bool.not_eq_false']
  constructor
  · rintro ⟨_, _, ⟨⟨variant, listed, rfl⟩, none⟩, rfl⟩
    exact ⟨variant, listed, none⟩
  · rintro ⟨variant, listed, none⟩
    exact ⟨index, _, ⟨⟨variant, listed, rfl⟩, none⟩, rfl⟩

/-- Untagged variants are listed in ascending order. -/
theorem sorted_untaggedOf (definitions : Definitions) (variants : List Schema) :
    (untaggedOf definitions variants).Pairwise (· < ·) := by
  have all : ((numbered definitions variants).map Prod.fst).Pairwise (· < ·) := by
    rw [numbered_map_fst]
    exact List.pairwise_lt_range
  exact all.sublist (List.filter_sublist.map Prod.fst)

/-- The search in the words of this module: the first key in order for which a table can be
built. -/
theorem find?_eq (definitions : Definitions) (variants : List Schema) :
    find? definitions variants =
      if variants.countP (Schema.tagged definitions) < 2 then none
      else (keys definitions variants).findSome? (fun key =>
        (tableFor? key none [] (taggedOf definitions variants)).map (fun (wireKey, table) =>
          ⟨key, wireKey, table, untaggedOf definitions variants⟩)) := by
  rw [← length_taggedOf, ← flatMap_taggedOf]
  simp only [find?, keysOf]
  rw [findSome?_dedupe]
  rfl

/-- A discriminator that is found gives a literal to the variant whose candidate admits it. -/
theorem variantOf?_iff_assigns {discriminator : Discriminator}
    (found : find? definitions variants = some discriminator) (literal : Literal) (index : Nat) :
    discriminator.variantOf? literal = some index ↔
      Assigns definitions variants discriminator.key literal index := by
  rw [find?_eq] at found
  split at found
  · cases found
  · obtain ⟨key, _, made⟩ := List.exists_of_findSome?_eq_some found
    obtain ⟨⟨wireKey, table⟩, built, rfl⟩ := Option.map_eq_some_iff.mp made
    exact owner?_built built literal index

/-- **Selection of a discriminator.** A union has one exactly when two of its variants are tagged
and some key qualifies. It then is the first key that does, in the order of variants and of
their candidates, under the wire name of all candidates for it; a literal goes to a variant
exactly when the variant's candidate admits it, and the untagged variants are left aside in
their order. -/
theorem find?_first_qualifying (definitions : Definitions) (variants : List Schema) :
    (find? definitions variants = none ↔
      variants.countP (Schema.tagged definitions) < 2 ∨
        ∀ key, ¬ Qualifies definitions variants key) ∧
    ∀ discriminator, find? definitions variants = some discriminator →
      (∃ before after, keys definitions variants = before ++ discriminator.key :: after ∧
        Qualifies definitions variants discriminator.key ∧
        ∀ key ∈ before, ¬ Qualifies definitions variants key) ∧
      (∀ variant ∈ variants, ∀ candidate,
        variant.candidate? definitions discriminator.key = some candidate →
          candidate.wireName = discriminator.wireKey) ∧
      (∀ literal index, discriminator.variantOf? literal = some index ↔
        ∃ variant candidate, variants[index]? = some variant ∧
          variant.candidate? definitions discriminator.key = some candidate ∧
          literal.isIn candidate.values = true) ∧
      discriminator.rest.Pairwise (· < ·) ∧
      ∀ index, index ∈ discriminator.rest ↔
        ∃ variant, variants[index]? = some variant ∧ variant.tagged definitions = false := by
  rw [find?_eq]
  by_cases few : variants.countP (Schema.tagged definitions) < 2
  · simp [few]
  rw [if_neg few]
  refine ⟨?_, fun discriminator found => ?_⟩
  · rw [List.findSome?_eq_none_iff]
    constructor
    · refine fun none => .inr (fun key qualifies => ?_)
      obtain ⟨built, entered⟩ := qualifies.exists_table
      have member : key ∈ keys definitions variants := by
        obtain ⟨variant, inside, some⟩ := List.countP_pos_iff.mp (by omega :
          0 < variants.countP (Schema.tagged definitions))
        obtain ⟨candidate, own⟩ := qualifies.declared variant inside some
        obtain ⟨among, rfl⟩ := Candidate.mem_of_first? own
        exact List.mem_flatMap.mpr ⟨variant, inside, List.mem_map_of_mem among⟩
      simpa [entered] using none key member
    · rintro (contra | none) key -
      · exact absurd contra few
      · refine Option.map_eq_none_iff.mpr (Option.eq_none_iff_forall_ne_some.mpr ?_)
        rintro ⟨wireKey, table⟩ built
        exact none key (qualifies_of_built built)
  · obtain ⟨before, key, after, split, made, early⟩ := List.findSome?_eq_some_iff.mp found
    obtain ⟨⟨wireKey, table⟩, built, rfl⟩ := Option.map_eq_some_iff.mp made
    refine ⟨⟨before, after, split, qualifies_of_built built, fun other member qualifies => ?_⟩,
      fun variant inside candidate own => wireName_built built inside own,
      owner?_built built, sorted_untaggedOf definitions variants,
      fun index => mem_untaggedOf_iff⟩
    obtain ⟨_, entered⟩ := qualifies.exists_table
    simpa [entered] using early other member

end Discriminator

end Conform
