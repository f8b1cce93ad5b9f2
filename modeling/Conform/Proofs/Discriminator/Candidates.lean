import Conform.Proofs.Attempt.Readings

/-!
# Candidates are sound

What a schema accepts holds, at the key of each of its candidates, a value that stands for one of
the literals of that candidate: it denotes the literal, or is a string that the options have read
as it. Keys are read as they are here.

An intersection passes on what its components answered, so a component may see another
value than the whole was given. But an answer denotes only literals that the value stood for, so
what a component asks of its value holds of the value as it was given.
-/

namespace Conform

namespace Candidate

/-- Lists of the same literals hold the same literals. -/
theorem isIn_of_sameValues {literal : Literal} {left right : List Literal}
    (same : sameValues left right = true) (inside : literal.isIn right = true) :
    literal.isIn left = true := by
  induction left generalizing right with
  | nil =>
    cases right with
    | nil => exact inside
    | cons first rest => cases same
  | cons first rest ih =>
    cases right with
    | nil => cases same
    | cons first' rest' =>
      simp only [sameValues, Bool.and_eq_true] at same
      simp only [Literal.isIn, List.any_cons, Bool.or_eq_true] at inside ⊢
      exact inside.imp (Literal.same_trans same.1) (ih same.2)

end Candidate

namespace Schema

/-- What is known stays in the list when literals are added. -/
theorem isIn_addLiterals_left {literal : Literal} {known : List Literal} (literals : List Literal)
    (inside : literal.isIn known = true) : literal.isIn (addLiterals known literals) = true := by
  induction literals generalizing known with
  | nil => exact inside
  | cons first rest ih =>
    apply ih
    simp only
    split
    · exact inside
    · rw [Literal.isIn, List.any_append]
      exact Bool.or_eq_true _ _ ▸ .inl inside

/-- What is added is in the list. -/
theorem isIn_addLiterals_right {literal : Literal} {known literals : List Literal}
    (inside : literal.isIn literals = true) :
    literal.isIn (addLiterals known literals) = true := by
  induction literals generalizing known with
  | nil => cases inside
  | cons first rest ih =>
    rw [Literal.isIn, List.any_cons, Bool.or_eq_true] at inside
    rcases inside with same | later
    · apply isIn_addLiterals_left rest
      simp only
      split
      · next known =>
        obtain ⟨other, member, alike⟩ := List.any_eq_true.mp known
        exact List.any_eq_true.mpr ⟨other, member, Literal.same_trans alike same⟩
      · exact List.any_eq_true.mpr ⟨first, by simp, same⟩
    · exact ih later

/-- The literals of every option, and those known before, are among those of the union. -/
theorem unionLiterals?_spec {definitions : Definitions} {known literals : List Literal}
    {options : List Schema} (found : unionLiterals? definitions known options = some literals) :
    (∀ literal : Literal, literal.isIn known = true → literal.isIn literals = true) ∧
      ∀ option ∈ options, ∃ own, option.literals? definitions = some own ∧
        ∀ literal : Literal, literal.isIn own = true → literal.isIn literals = true := by
  induction options generalizing known with
  | nil =>
    obtain rfl := Option.some.inj found
    exact ⟨fun _ => id, fun _ member => by cases member⟩
  | cons option rest ih =>
    rw [unionLiterals?] at found
    split at found
    · next own listed =>
      obtain ⟨kept, others⟩ := ih found
      refine ⟨fun literal inside => kept literal (isIn_addLiterals_left own inside),
        List.forall_mem_cons.mpr ⟨⟨own, listed, fun literal inside => ?_⟩, others⟩⟩
      exact kept literal (isIn_addLiterals_right inside)
    · cases found

/-- Candidates that are added to others were among either. -/
theorem mem_addCandidates {candidate : Candidate} {known further : List Candidate}
    (member : candidate ∈ addCandidates known further) :
    candidate ∈ known ∨ candidate ∈ further := by
  induction further generalizing known with
  | nil => exact .inl member
  | cons first rest ih =>
    rcases ih member with early | late
    · simp only at early
      split at early
      · exact .inl early
      · rcases List.mem_append.mp early with old | new
        · exact .inl old
        · exact .inr (List.mem_singleton.mp new ▸ .head _)
    · exact .inr (.tail _ late)

/-- The candidates of an intersection are those of its components. -/
theorem mem_foldl_addCandidates {candidate : Candidate} {own : Schema → List Candidate}
    {components : List Schema} {known : List Candidate}
    (member : candidate ∈ components.foldl (fun known component =>
      addCandidates known (own component)) known) :
    candidate ∈ known ∨ ∃ component ∈ components, candidate ∈ own component := by
  induction components generalizing known with
  | nil => exact .inl member
  | cons first rest ih =>
    rcases ih member with early | ⟨component, listed, further⟩
    · rcases mem_addCandidates early with old | new
      · exact .inl old
      · exact .inr ⟨first, .head _, new⟩
    · exact .inr ⟨component, .tail _ listed, further⟩

/-- A candidate of a union is one of the first branch, and every other branch has one that
agrees. -/
theorem mem_foldl_filter {candidate : Candidate} {own : Schema → List Candidate}
    {branches : List Schema} {common : List Candidate}
    (member : candidate ∈ branches.foldl (fun common branch =>
      common.filter (fun candidate => (own branch).any (fun other => candidate.agrees other)))
      common) :
    candidate ∈ common ∧ ∀ branch ∈ branches, ∃ other ∈ own branch,
      candidate.agrees other = true := by
  induction branches generalizing common with
  | nil => exact ⟨member, fun _ member => by cases member⟩
  | cons branch rest ih =>
    obtain ⟨filtered, others⟩ := ih member
    obtain ⟨inside, agreed⟩ := List.mem_filter.mp filtered
    exact ⟨inside, List.forall_mem_cons.mpr ⟨List.any_eq_true.mp agreed, others⟩⟩

end Schema

namespace Context

variable {context : Context} {schema : Schema} {value answer : Value}

/-- What a chain of names accepts, the node behind the names accepts, under a name when it
is a container. -/
theorem accepted_behind {hops : Nat} {node : Schema}
    (behind : schema.follow context.definitions hops = node) (structural : node ≠ .unknown)
    (judged : context.Judges schema value (.accepted answer)) :
    ∃ owner inner, schema.Reaches context.definitions owner ∧ context.shape owner = node ∧
      context.Judges owner value (.accepted inner) := by
  induction hops generalizing schema answer with
  | zero => exact absurd behind.symm structural
  | succ hops ih =>
    cases schema with
    | named ref =>
      obtain ⟨fuel, place, ended⟩ := judged
      rcases attempt_named_ok context _ _ _ ended with
        ⟨direct, _⟩ | ⟨other, less, inner, rfl, judged, tagged⟩
      · refine ⟨.named ref, answer, Relation.ReflTransGen.refl, ?_, fuel, place, ended⟩
        rw [shape, if_pos direct, ← behind, Schema.follow]
        rcases hops with _ | hops
        · exact absurd behind.symm structural
        · cases definition : context.definitions ref <;> rw [definition] at direct <;>
            first | rfl | cases direct
      · cases inner with
        | accepted inner =>
          obtain ⟨owner, kept, reached, shaped, judged⟩ := ih behind ⟨less, place, judged⟩
          exact ⟨owner, kept, Relation.ReflTransGen.head
            (List.mem_append_left _ Schema.definition_mem_facets) reached, shaped, judged⟩
        | rejected violations => cases tagged
    | _ => exact ⟨_, answer, Relation.ReflTransGen.refl, behind, judged⟩

/-- What judges in the place of a schema is the schema itself unless it is a container. -/
theorem eq_of_shape {node : Schema} (shaped : context.shape schema = node)
    (other : node.isContainer = false) : schema = node := by
  cases schema with
  | named ref =>
    rw [shape] at shaped
    split at shaped
    · next direct =>
      rw [shaped, other] at direct
      cases direct
    · exact shaped
  | _ => exact shaped

/-- A union accepts by one of its options. -/
theorem accepted_union {node : Nat} {options : List Schema}
    (sound : context.Sound (.union node options))
    (judged : context.Judges (.union node options) value (.accepted answer)) :
    ∃ option ∈ options, context.Judges option value (.accepted answer) := by
  cases judged_step sound judged with
  | union shape judged =>
    cases shape
    exact judged.accepted
  | leaf leaf judged => cases leaf
  | items place shape => cases shape
  | fields place shape => cases shape
  | intersection shape => cases shape
  | named shape => cases shape

/-- An intersection accepts by passing the value through its components. -/
theorem accepted_intersection {node : Nat} {components : List Schema}
    (sound : context.Sound (.intersection node components))
    (judged : context.Judges (.intersection node components) value (.accepted answer)) :
    Validator.Chain context.Judges components value [] (.accepted answer) := by
  cases judged_step sound judged with
  | intersection shape judged =>
    cases shape
    exact judged
  | leaf leaf judged => cases leaf
  | items place shape => cases shape
  | fields place shape => cases shape
  | union shape => cases shape
  | named shape => cases shape

/-- What a schema with listed literals accepts stands for one of them. -/
theorem literal_of_literals? (sound : context.Sound schema) {literals : List Literal}
    (listed : schema.literals? context.definitions = some literals)
    (judged : context.Judges schema value (.accepted answer)) :
    ∃ literal, value.StandsFor context.settings literal ∧ literal.isIn literals = true := by
  have structural : schema.resolve context.definitions ≠ .unknown := by
    intro unknown
    rw [Schema.literals?, unknown] at listed
    cases listed
  obtain ⟨owner, inner, reached, shaped, judged⟩ := accepted_behind rfl structural judged
  have leaf : (schema.resolve context.definitions).isContainer = false := by
    rw [Schema.literals?] at listed
    revert listed
    cases schema.resolve context.definitions <;> simp [Schema.isContainer, Schema.ownLiterals?]
  obtain rfl := eq_of_shape shaped leaf
  exact leaf_literal (sound.reached reached).here.knownFormats listed judged

/-- What a property that is restricted to literals accepts stands for one of them. -/
theorem literal_of_propertyLiterals? (sound : context.Sound schema) {literals : List Literal}
    (restricted : schema.propertyLiterals? context.definitions = some literals)
    (judged : context.Judges schema value (.accepted answer)) :
    ∃ literal, value.StandsFor context.settings literal ∧ literal.isIn literals = true := by
  unfold Schema.propertyLiterals? at restricted
  split at restricted
  · next listed =>
    obtain rfl := Option.some.inj restricted
    exact literal_of_literals? sound listed judged
  · split at restricted
    · next node options behind =>
      have found : Schema.unionLiterals? context.definitions [] options = some literals := by
        split at restricted
        · cases restricted
        · exact restricted
      obtain ⟨owner, inner, reached, shaped, judged⟩ := accepted_behind behind (by simp) judged
      obtain rfl := eq_of_shape shaped rfl
      obtain ⟨option, member, judged⟩ := accepted_union (sound.reached reached) judged
      obtain ⟨own, listed, inside⟩ := (Schema.unionLiterals?_spec found).2 option member
      obtain ⟨literal, denoted, among⟩ := literal_of_literals?
        ((sound.reached reached).facet member) listed judged
      exact ⟨literal, denoted, inside literal among⟩
    · cases restricted

/-- A required property of an accepted object that is restricted to literals holds one. -/
theorem objectCandidate_sound (inward : context.settings.convertFromNetwork = false)
    (sound : context.Sound schema)
    {node : Nat} {properties : List (Property Schema)} {additional : Additional Schema}
    (shaped : context.shape schema = .object node properties additional)
    {candidate : Candidate}
    (member : candidate ∈ Schema.objectCandidates context.definitions properties)
    (judged : context.Judges schema value (.accepted answer)) :
    ∃ literal, (value.field candidate.key).StandsFor context.settings literal ∧
      literal.isIn candidate.values = true := by
  obtain ⟨property, among, made⟩ := List.mem_filterMap.mp member
  obtain ⟨listed, required⟩ := List.mem_filter.mp among
  obtain ⟨values, restricted, rfl⟩ := Option.map_eq_some_iff.mp made
  obtain ⟨place, content, fields, answers, tags, rfl, _, step⟩ :=
    (judged_step sound judged).object shaped
  rw [inward, Bool.false_and] at step
  obtain ⟨found, extras, permitted, declared, others⟩ := step
  have inside : property.body ∈ (context.shape schema).contents := by
    rw [shaped]
    exact Schema.body_mem_contents listed
  have step := declared property listed
  generalize found property.name = outcome at step
  cases step with
  | absent missing optional =>
    rw [required] at optional
    cases optional
  | present there judged =>
    rw [Validator.readKey_false] at judged
    exact literal_of_propertyLiterals? (sound.reached (reaches_content inside))
      restricted judged

/-- What a schema accepts holds a literal of every candidate at its key. -/
theorem candidate_sound (inward : context.settings.convertFromNetwork = false)
    (sound : context.Sound schema)
    {levels : Nat} {candidate : Candidate}
    (member : candidate ∈ schema.candidatesWithin context.definitions levels)
    (keyed : value.Keyed) (judged : context.Judges schema value (.accepted answer)) :
    ∃ literal, (value.field candidate.key).StandsFor context.settings literal ∧
      literal.isIn candidate.values = true := by
  induction levels generalizing schema candidate value answer with
  | zero => cases member
  | succ levels ih =>
    rw [Schema.candidatesWithin] at member
    split at member
    · next behind =>
      obtain ⟨owner, inner, reached, shaped, judged⟩ := accepted_behind behind (by simp) judged
      exact objectCandidate_sound inward (sound.reached reached) shaped member judged
    · next node components behind =>
      obtain ⟨owner, inner, reached, shaped, judged⟩ := accepted_behind behind (by simp) judged
      obtain rfl := eq_of_shape shaped rfl
      have sound := sound.reached reached
      rcases Schema.mem_foldl_addCandidates member with none | ⟨component, listed, own⟩
      · cases none
      obtain ⟨item, answered, keeps, judged⟩ := (accepted_intersection sound judged).each
        (Keeps.refl _ value) (fun component listed item answer keeps judged =>
          keeps.trans (answer_keeps inward (sound.facet listed) judged)) component listed
      obtain ⟨literal, denoted, inside⟩ :=
        ih (sound.facet listed) own (keeps.keyed keyed) judged
      exact ⟨literal, denoted.before (keeps.field keyed _), inside⟩
    · cases member
    · next node first branches behind =>
      obtain ⟨owner, inner, reached, shaped, judged⟩ := accepted_behind behind (by simp) judged
      obtain rfl := eq_of_shape shaped rfl
      have sound := sound.reached reached
      obtain ⟨own, agreed⟩ := Schema.mem_foldl_filter member
      obtain ⟨choice, listed, accepted⟩ := accepted_union sound judged
      rcases List.mem_cons.mp listed with same | later
      · exact ih (sound.facet listed) (same ▸ own) keyed accepted
      · obtain ⟨other, theirs, agrees⟩ := agreed choice later
        simp only [Candidate.agrees, Bool.and_eq_true, beq_iff_eq] at agrees
        obtain ⟨⟨keys, values⟩, _⟩ := agrees
        obtain ⟨literal, denoted, inside⟩ := ih (sound.facet listed) theirs keyed accepted
        rw [← keys] at denoted
        exact ⟨literal, denoted, Candidate.isIn_of_sameValues values inside⟩
    · cases member

end Context

end Conform
