import Conform.Proofs.Discriminator.Candidates

/-!
# What an accepted variant leaves behind

A variant has a candidate because of a property of some object type: its own, that of a
component, or one that all branches have. Whatever accepts a value by the variant judges it by
such an object type on the way, so the answer carries the tag of one.
-/

namespace Conform

namespace Schema

variable {definitions : Definitions} {candidate : Candidate}

/-- The candidates of a name are those of what it stands for. -/
theorem mem_candidatesWithin_definition {ref : NamedRef} {levels : Nat}
    (member : candidate ∈ (Schema.named ref).candidatesWithin definitions levels) :
    candidate ∈ (definitions ref).candidatesWithin definitions levels := by
  cases levels with
  | zero => cases member
  | succ levels =>
    have behind : (Schema.named ref).resolve definitions =
        follow definitions 63 (definitions ref) := rfl
    by_cases unknown : (Schema.named ref).resolve definitions = .unknown
    · rw [candidatesWithin, unknown] at member
      cases member
    · have same : (definitions ref).resolve definitions = (Schema.named ref).resolve definitions :=
        follow_succ behind.symm unknown
      rw [candidatesWithin] at member ⊢
      rwa [same]

end Schema

namespace Context

variable {context : Context}

/-- One of the tags is of an object type with the property of the candidate. -/
def Tells (context : Context) (tags : Tags) (candidate : Candidate) : Prop :=
  ∃ judge ∈ tags, ∃ node properties additional,
    context.shape judge = .object node properties additional ∧
      ∃ property ∈ properties, property.name = candidate.key ∧
        property.wireName = candidate.wireName

/-- More tags tell as much. -/
theorem Tells.more {tags tags' : Tags} {candidate : Candidate}
    (tells : context.Tells tags candidate) (more : tags ⊆ tags') :
    context.Tells tags' candidate := by
  obtain ⟨judge, member, further⟩ := tells
  exact ⟨judge, more member, further⟩

/-- The tag of an object type tells its candidates. -/
theorem tells_of_shape {schema : Schema} {node : Nat} {properties : List (Property Schema)}
    {additional : Additional Schema} {tags : Tags} {levels : Nat} {candidate : Candidate}
    (shaped : context.shape schema = .object node properties additional) (tagged : schema ∈ tags)
    (member : candidate ∈ schema.candidatesWithin context.definitions levels) :
    context.Tells tags candidate := by
  cases levels with
  | zero => cases member
  | succ levels =>
    rw [Schema.candidatesWithin, resolve_of_container (by rw [shaped]; rfl), shaped] at member
    obtain ⟨property, among, made⟩ := List.mem_filterMap.mp member
    obtain ⟨values, _, rfl⟩ := Option.map_eq_some_iff.mp made
    exact ⟨schema, tagged, node, properties, additional, shaped, property,
      List.mem_of_mem_filter among, rfl, rfl⟩

/-- A container carries the tags that it is given. -/
theorem tags_withTags {value : Value} (container : value.tags ≠ []) (schemas : List Schema) :
    value.tags ⊆ (value.withTags schemas).tags ∧ schemas ⊆ (value.withTags schemas).tags := by
  cases value with
  | array content items tags =>
    exact ⟨fun _ member => (Tags.mem_merge _ _ _).mpr (.inl member),
      fun _ member => (Tags.mem_merge _ _ _).mpr (.inr member)⟩
  | object content fields tags =>
    exact ⟨fun _ member => (Tags.mem_merge _ _ _).mpr (.inl member),
      fun _ member => (Tags.mem_merge _ _ _).mpr (.inr member)⟩
  | _ => exact absurd rfl container

end Context

namespace Validator

/-- Where components only add tags, the last answer has those of all answers, and the chain
answers it as it is. -/
theorem Chain.tagged {α : Type} {judges : α → Value → Verdict → Prop} {components : List α}
    {value answer : Value} {tags : Tags}
    (chain : Chain judges components value tags (.accepted answer))
    (known : tags ⊆ value.tags)
    (grows : ∀ component ∈ components, ∀ item answer, judges component item (.accepted answer) →
      item.tags ⊆ answer.tags) :
    value.tags ⊆ answer.tags ∧ ∀ component ∈ components, ∃ item inner,
      judges component item (.accepted inner) ∧ inner.tags ⊆ answer.tags := by
  induction components generalizing value tags with
  | nil =>
    cases chain
    have same : value.withTags tags = value := Value.withTags_of_subset (fun own found => by
      simpa [Value.tags, found] using known)
    rw [same]
    exact ⟨List.Subset.refl _, fun _ member => by cases member⟩
  | cons component rest ih =>
    cases chain with
    | @next _ _ _ first _ _ judged further =>
      have more := grows component (.head _) _ _ judged
      obtain ⟨kept, others⟩ := ih further (fun schema member => by
        rcases (Tags.mem_merge _ _ _).mp member with old | new
        · exact more (known old)
        · exact new) (fun other member => grows other (.tail _ member))
      have told := List.forall_mem_cons.mpr ⟨⟨value, first, judged, kept⟩, others⟩
      exact ⟨List.Subset.trans more kept, told⟩

/-- What components make of a value, one after the other, is the answer of the chain, when they
only add tags. -/
theorem Chain.accumulates {α : Type} {judges : α → Value → Verdict → Prop} {components : List α}
    {value answer : Value} {tags : Tags}
    (chain : Chain judges components value tags (.accepted answer))
    (holds : List α → Value → Prop) (done : List α) (start : holds done value)
    (known : tags ⊆ value.tags)
    (kept : ∀ done, ∀ component ∈ components, ∀ item answer, holds done item →
      judges component item (.accepted answer) →
      holds (done ++ [component]) answer ∧ item.tags ⊆ answer.tags) :
    holds (done ++ components) answer := by
  induction components generalizing done value tags with
  | nil =>
    cases chain
    have same : value.withTags tags = value := Value.withTags_of_subset (fun own found => by
      simpa [Value.tags, found] using known)
    rwa [same, List.append_nil]
  | cons component rest ih =>
    cases chain with
    | next judged further =>
      obtain ⟨further', more⟩ := kept done component (.head _) _ _ start judged
      rw [List.append_cons]
      refine ih further _ further' (fun schema member => ?_)
        (fun done other member => kept done other (.tail _ member))
      rcases (Tags.mem_merge _ _ _).mp member with old | new
      · exact more (known old)
      · exact new

/-- What components preserve holds of the answer of the chain, when they only add tags. -/
theorem Chain.preserves {α : Type} {judges : α → Value → Verdict → Prop} {holds : Value → Prop}
    {components : List α} {value answer : Value} {tags : Tags}
    (chain : Chain judges components value tags (.accepted answer)) (start : holds value)
    (known : tags ⊆ value.tags)
    (kept : ∀ component ∈ components, ∀ item answer, holds item →
      judges component item (.accepted answer) → holds answer ∧ item.tags ⊆ answer.tags) :
    holds answer :=
  chain.accumulates (fun _ => holds) [] start known (fun _ => kept)

end Validator

namespace Context

variable {context : Context} {schema : Schema} {value answer : Value}

/-- An answer has the tags of its value. -/
theorem answer_grows (verbatim : context.settings.Verbatim) (sound : context.Sound schema)
    (judged : context.Judges schema value (.accepted answer)) : value.tags ⊆ answer.tags := by
  refine accepted_induction (motive := fun _ value answer => value.tags ⊆ answer.tags) ?_ sound
    sound judged
  intro schema value answer sound step
  cases step with
  | leaf leaf judged =>
    rcases leaf_answer leaf sound.here.knownFormats judged with rfl | ⟨_, loose⟩
    · exact List.Subset.refl _
    · exact absurd verbatim loose
  | items place shape found count judged =>
    exact fun _ member => (Tags.mem_merge _ _ _).mpr (.inl member)
  | fields place shape object judged =>
    subst object
    exact fun _ member => (Tags.mem_insert _ _ _).mpr (.inl member)
  | union shape judged =>
    obtain ⟨choice, _, _, _, grows⟩ := judged.accepted
    exact grows answer rfl
  | intersection shape judged =>
    exact (judged.tagged (List.nil_subset _) (fun component _ item answer judged =>
      judged.2.2 answer rfl)).1
  | named shape other judged tagged =>
    obtain ⟨first, rfl, rfl⟩ := accepted_of_map tagged
    by_cases none : first.tags = []
    · have some := judged.2.2 first rfl
      rw [none, List.subset_nil] at some
      rw [some]
      exact List.nil_subset _
    · exact List.Subset.trans (judged.2.2 first rfl) (tags_withTags none _).1

/-- What a schema accepts tells each of its candidates. -/
theorem answer_tells (verbatim : context.settings.Verbatim) (sound : context.Sound schema)
    (judged : context.Judges schema value (.accepted answer)) {levels : Nat}
    {candidate : Candidate}
    (member : candidate ∈ schema.candidatesWithin context.definitions levels) :
    context.Tells answer.tags candidate := by
  revert levels candidate
  refine accepted_induction (motive := fun schema value answer => ∀ {levels} {candidate},
    candidate ∈ schema.candidatesWithin context.definitions levels →
      context.Tells answer.tags candidate) ?_ sound sound judged
  clear sound judged
  intro schema value answer sound step levels candidate member
  cases levels with
  | zero => cases member
  | succ levels =>
  have own := member
  rw [Schema.candidatesWithin] at own
  cases step with
  | leaf leaf judged =>
    cases schema <;> first | cases (show candidate ∈ [] from own) | cases leaf
  | items place shape found count judged =>
    rw [resolve_of_container (by rw [shape]; rfl), shape] at own
    cases own
  | fields place shape object judged =>
    exact tells_of_shape shape ((Tags.mem_insert _ _ _).mpr (.inr rfl)) member
  | @union node choices _ shape judged =>
    subst shape
    obtain ⟨choice, listed, _, _, tells⟩ := judged.accepted
    cases choices with
    | nil => cases listed
    | cons first branches =>
    obtain ⟨inside, agreed⟩ :=
      Schema.mem_foldl_filter (show candidate ∈ branches.foldl _ _ from own)
    rcases List.mem_cons.mp listed with rfl | later
    · exact tells answer rfl inside
    · obtain ⟨other, theirs, agrees⟩ := agreed choice later
      simp only [Candidate.agrees, Bool.and_eq_true, beq_iff_eq] at agrees
      rw [Tells, agrees.1.1, agrees.2]
      exact tells answer rfl theirs
  | @intersection node components _ shape judged =>
    subst shape
    rcases Schema.mem_foldl_addCandidates (show candidate ∈ components.foldl _ _ from own) with
      none | ⟨component, listed, theirs⟩
    · cases none
    · obtain ⟨item, inner, ⟨_, _, tells⟩, more⟩ := (judged.tagged (List.nil_subset _)
        (fun component _ item answer judged =>
          answer_grows verbatim judged.1 judged.2.1)).2 component listed
      exact (tells inner rfl theirs).more more
  | @named ref inner verdict shape other judged tagged =>
    subst shape
    obtain ⟨first, rfl, rfl⟩ := accepted_of_map tagged
    have tells := judged.2.2 first rfl (Schema.mem_candidatesWithin_definition member)
    have some : first.tags ≠ [] := by
      intro none
      obtain ⟨judge, inside, _⟩ := tells
      rw [none] at inside
      cases inside
    exact tells.more (tags_withTags some _).1

end Context

end Conform
