import Mathlib.Data.List.Forall2

/-!
# Lists, member by member

Members of lists that are related member by member, a member that is selected alone, and
what holds of all members from some number on.
-/

namespace Conform

section

variable {α β : Type} {related : α → β → Prop} {left : List α} {right : List β}

/-- The member at a position has its counterpart at that position. -/
theorem forall₂_getElem? (alike : List.Forall₂ related left right) {index : Nat} {first : α}
    (listed : left[index]? = some first) :
    ∃ second, right[index]? = some second ∧ related first second := by
  obtain ⟨lengths, each⟩ := List.forall₂_iff_get.mp alike
  obtain ⟨inside, rfl⟩ := List.getElem?_eq_some_iff.mp listed
  exact ⟨_, List.getElem?_eq_getElem (lengths ▸ inside), each index inside (lengths ▸ inside)⟩

/-- The position of a counterpart has a member. -/
theorem forall₂_getElem?_right (alike : List.Forall₂ related left right) {index : Nat}
    {second : β} (listed : right[index]? = some second) :
    ∃ first, left[index]? = some first ∧ related first second :=
  forall₂_getElem? alike.flip listed

/-- Every member has a counterpart. -/
theorem forall₂_mem (alike : List.Forall₂ related left right) {first : α} (member : first ∈ left) :
    ∃ second ∈ right, related first second := by
  obtain ⟨index, listed⟩ := List.getElem?_of_mem member
  obtain ⟨second, found, both⟩ := forall₂_getElem? alike listed
  exact ⟨second, List.mem_of_getElem? found, both⟩

/-- Every counterpart has a member. -/
theorem forall₂_mem_right (alike : List.Forall₂ related left right) {second : β}
    (member : second ∈ right) : ∃ first ∈ left, related first second :=
  forall₂_mem alike.flip member

/-- Related lists are related by whatever follows for their members. -/
theorem forall₂_imp_of_mem {other : α → β → Prop} (alike : List.Forall₂ related left right)
    (weaker : ∀ first ∈ left, ∀ second, related first second → other first second) :
    List.Forall₂ other left right := by
  have inside := (List.forall₂_and_left left right).mpr ⟨fun _ member => member, alike⟩
  exact inside.imp (fun first second both => weaker first both.1 second both.2)

/-- Lists that are related to related lists are related by whatever follows for their
members. -/
theorem forall₂_between {γ δ : Type} {related' : γ → δ → Prop} {between : α → γ → Prop}
    {other : β → δ → Prop} {left' : List γ} {right' : List δ}
    (alike : List.Forall₂ related left right) (across : List.Forall₂ between left left')
    (alike' : List.Forall₂ related' left' right')
    (follows : ∀ first second first' second', related first second → between first first' →
      related' first' second' → other second second') :
    List.Forall₂ other right right' := by
  induction across generalizing right right' with
  | nil =>
    cases alike
    cases alike'
    exact .nil
  | cons head _ ih =>
    cases alike with
    | cons first further =>
      cases alike' with
      | cons first' further' =>
        exact .cons (follows _ _ _ _ first head first') (ih further further')

end

/-- One member alone is selected when its position is the only one that is. -/
theorem filterMap_eq_singleton_iff {α β : Type} {select : α → Option β} {members : List α}
    {result : β} :
    members.filterMap select = [result] ↔
      ∃ index : Nat, members[index]?.bind select = some result ∧
        ∀ other : Nat, (members[other]?.bind select).isSome = true → other = index := by
  induction members with
  | nil => simp
  | cons first rest ih =>
    rw [List.filterMap_cons]
    cases head : select first with
    | none =>
      simp only [ih]
      constructor
      · rintro ⟨index, found, alone⟩
        refine ⟨index + 1, by simpa using found, fun other some => ?_⟩
        cases other with
        | zero => simp [head] at some
        | succ other => rw [alone other (by simpa using some)]
      · rintro ⟨index, found, alone⟩
        cases index with
        | zero => simp [head] at found
        | succ index =>
          refine ⟨index, by simpa using found, fun other some => ?_⟩
          exact Nat.succ.inj (alone (other + 1) (by simpa using some))
    | some selected =>
      simp only [List.cons.injEq, List.filterMap_eq_nil_iff]
      constructor
      · rintro ⟨rfl, none⟩
        refine ⟨0, by simpa using head, fun other some => ?_⟩
        cases other with
        | zero => rfl
        | succ other =>
          obtain ⟨result, found⟩ := Option.isSome_iff_exists.mp some
          obtain ⟨member, listed, chosen⟩ := Option.bind_eq_some_iff.mp found
          have silent := none member (List.mem_of_getElem? (i := other) (by simpa using listed))
          cases silent.symm.trans chosen
      · rintro ⟨index, found, alone⟩
        obtain rfl := alone 0 (by simp [head])
        refine ⟨by simpa [head] using found, fun member inside => ?_⟩
        obtain ⟨position, listed⟩ := List.getElem?_of_mem inside
        cases chosen : select member with
        | none => rfl
        | some other => cases alone (position + 1) (by simp [listed, chosen])

/-- What holds of each member of a list from some number on holds of all of them from some
number on. -/
theorem exists_common_bound {α : Type} {holds : α → Nat → Prop} (members : List α)
    (each : ∀ member ∈ members, ∃ bound, ∀ number, bound ≤ number → holds member number) :
    ∃ bound, ∀ number, bound ≤ number → ∀ member ∈ members, holds member number := by
  induction members with
  | nil => exact ⟨0, fun _ _ _ member => by cases member⟩
  | cons first rest ih =>
    obtain ⟨least, head⟩ := each first (.head _)
    obtain ⟨bound, tail⟩ := ih (fun member inside => each member (.tail _ inside))
    refine ⟨max least bound, fun number large => ?_⟩
    rw [List.forall_mem_cons]
    exact ⟨head number (by omega), tail number (by omega)⟩

/-- What is enough for more steps leaves enough after them. -/
theorem exists_eq_add_of_add_le {bound steps number : Nat} (enough : bound + steps ≤ number) :
    ∃ less, number = less + steps ∧ bound ≤ less :=
  ⟨number - steps, by omega, by omega⟩

/-- Where a key is found, it is paired with what is found. -/
theorem mem_of_lookup_eq_some {α β : Type} [BEq α] [LawfulBEq α] {pairs : List (α × β)} {key : α}
    {value : β} (found : pairs.lookup key = some value) : (key, value) ∈ pairs := by
  obtain ⟨before, after, rfl, _⟩ := List.lookup_eq_some_iff.mp found
  exact List.mem_append_right _ List.mem_cons_self

/-- When keys are distinct, every pair is found under its key. -/
theorem lookup_eq_some_of_mem {α β : Type} [BEq α] [LawfulBEq α] {pairs : List (α × β)} {key : α}
    {value : β} (distinct : (pairs.map Prod.fst).Nodup) (member : (key, value) ∈ pairs) :
    pairs.lookup key = some value := by
  obtain ⟨before, after, rfl⟩ := List.append_of_mem member
  refine List.lookup_eq_some_iff.mpr ⟨before, after, rfl, fun pair earlier => ?_⟩
  rw [List.map_append, List.nodup_append] at distinct
  have apart := distinct.2.2 pair.1 (List.mem_map_of_mem earlier) key
    (List.mem_map_of_mem (f := Prod.fst) List.mem_cons_self)
  exact bne_iff_ne.mpr (Ne.symm apart)

end Conform
