import Conform.Proofs.Attempt.Answers
import Conform.Proofs.Attempt.Determined

/-!
# Answers belong to their name

What a name accepts belongs to the name: a container because it is tagged with it, a scalar
because it is accepted as it came and so is accepted again. For other names the question has
no answer.
-/

namespace Conform

/-- No container is a scalar node. -/
theorem Schema.isLeaf_of_isContainer {schema : Schema} (container : schema.isContainer = true) :
    schema.isLeaf = false := by
  cases schema <;> first | rfl | exact nomatch container

/-- A scalar node is a leaf, and asks for something. -/
theorem Schema.isLeaf_of_isScalar {definitions : Definitions} {node : Schema}
    (structural : ∀ ref, node ≠ .named ref) (scalar : node.isScalar definitions = true) :
    node.isLeaf = true ∧ node ≠ .unknown := by
  cases node with
  | named ref => exact absurd rfl (structural ref)
  | null => exact ⟨rfl, by simp⟩
  | boolean node rules => exact ⟨rfl, by simp⟩
  | integer node rules => exact ⟨rfl, by simp⟩
  | number node rules => exact ⟨rfl, by simp⟩
  | string node rules => exact ⟨rfl, by simp⟩
  | _ => cases scalar

namespace Context

variable {context : Context} {schema : Schema} {ref : NamedRef} {value answer : Value}

/-- What judges as a container is found behind its name, if it is not too far away. -/
theorem follow_of_container (container : (context.shape schema).isContainer = true) (hops : Nat) :
    schema.follow context.definitions hops = .unknown ∨
      schema.follow context.definitions hops = context.shape schema := by
  have direct : ∀ {node : Schema}, node.isContainer = true → ∀ hops,
      node.follow context.definitions hops = .unknown ∨
        node.follow context.definitions hops = node := by
    intro node container hops
    cases hops with
    | zero => exact .inl rfl
    | succ hops =>
      refine .inr (Schema.follow_structural ?_ hops)
      rintro ref rfl
      cases container
  cases hops with
  | zero => exact .inl rfl
  | succ hops =>
    cases schema with
    | named ref =>
      rw [shape] at container ⊢
      split at container
      · next inside =>
        rw [if_pos inside]
        exact direct inside hops
      · cases container
    | _ => exact direct container (hops + 1)

/-- A container that a name answers carries the name as a tag. -/
theorem hasTag_of_named (sound : context.Sound (.named ref))
    (accepted : context.Judges (.named ref) value (.accepted answer))
    (container : answer.tags?.isSome = true) : answer.hasTag (.named ref) = true := by
  cases judged_step sound accepted with
  | leaf leaf judged => cases leaf
  | items place shape found count judged =>
    exact (Tags.has_eq_true_iff _ _).mpr ((Tags.mem_merge _ _ _).mpr
      (.inr (List.mem_singleton.mpr rfl)))
  | fields place shape object judged =>
    exact (Tags.has_eq_true_iff _ _).mpr ((Tags.mem_insert _ _ _).mpr (.inr rfl))
  | union shape judged => cases shape
  | intersection shape judged => cases shape
  | named shape other judged tagged =>
    obtain ⟨first, rfl, rfl⟩ := accepted_of_map tagged
    cases first with
    | array content items tags =>
      exact (Tags.has_eq_true_iff _ _).mpr ((Tags.mem_merge _ _ _).mpr
        (.inr (List.mem_singleton.mpr rfl)))
    | object content fields tags =>
      exact (Tags.has_eq_true_iff _ _).mpr ((Tags.mem_merge _ _ _).mpr
        (.inr (List.mem_singleton.mpr rfl)))
    | _ => cases container

/-- What finds a container behind names answers containers. -/
theorem container_of_follow {hops : Nat} (sound : context.Sound schema)
    (container : (schema.follow context.definitions hops).isContainer = true)
    (accepted : context.Judges schema value (.accepted answer)) :
    answer.tags?.isSome = true := by
  induction hops generalizing schema value answer with
  | zero => cases container
  | succ hops ih =>
    cases judged_step sound accepted with
    | leaf leaf judged =>
      have structural : ∀ ref, schema ≠ .named ref := by
        rintro ref rfl
        cases leaf
      rw [Schema.follow_structural structural] at container
      exact absurd leaf (Bool.eq_false_iff.mp (Schema.isLeaf_of_isContainer container))
    | items place shape found count judged => rfl
    | fields place shape object judged => rfl
    | union shape judged =>
      subst shape
      cases container
    | intersection shape judged =>
      subst shape
      cases container
    | named shape other judged tagged =>
      subst shape
      obtain ⟨first, rfl, rfl⟩ := accepted_of_map tagged
      have inside := ih (sound.facet Schema.definition_mem_facets) container judged
      cases first with
      | array content items tags => rfl
      | object content fields tags => rfl
      | _ => cases inside

/-- What finds a scalar node behind names answers scalars as they came. -/
theorem scalar_of_follow (verbatim : context.settings.Verbatim) {hops : Nat}
    (sound : context.Sound schema)
    (leaf : (schema.follow context.definitions hops).isLeaf = true)
    (known : schema.follow context.definitions hops ≠ .unknown)
    (accepted : context.Judges schema value (.accepted answer)) :
    answer = value ∧ value.tags? = none := by
  induction hops generalizing schema answer with
  | zero => exact absurd rfl known
  | succ hops ih =>
    have apart : (context.shape schema).isContainer = false := by
      by_contra container
      rw [Bool.not_eq_false] at container
      obtain unknown | found := follow_of_container container (hops + 1)
      · exact known unknown
      · rw [found, Schema.isLeaf_of_isContainer container] at leaf
        cases leaf
    cases judged_step sound accepted with
    | leaf itself judged =>
      have structural : ∀ ref, schema ≠ .named ref := by
        rintro ref rfl
        cases itself
      rw [Schema.follow_structural structural] at known
      obtain rfl | ⟨_, loose⟩ := leaf_answer itself sound.here.knownFormats judged
      · exact ⟨rfl, leaf_scalar itself sound.here.knownFormats known judged⟩
      · exact absurd verbatim loose
    | items place shape found count judged =>
      rw [shape] at apart
      cases apart
    | fields place shape object judged =>
      rw [shape] at apart
      cases apart
    | union shape judged =>
      subst shape
      cases leaf
    | intersection shape judged =>
      subst shape
      cases leaf
    | named shape other judged tagged =>
      subst shape
      obtain ⟨first, rfl, rfl⟩ := accepted_of_map tagged
      obtain ⟨rfl, scalar⟩ := ih (sound.facet Schema.definition_mem_facets) leaf known judged
      refine ⟨?_, scalar⟩
      cases first <;> first | rfl | cases scalar

/-- Off containers, belonging to a name that resolves to a scalar is being accepted by it. -/
theorem isA_of_isScalar {node : Schema}
    (found : (context.definitions ref).resolve context.definitions = node)
    (scalar : node.isScalar context.definitions = true) {limit : Nat} {place : Identity}
    {verdict : Verdict} (strict : context.settings = .strict)
    (ended : context.attempt limit (.named ref) place value = .ok verdict) :
    ref.isA context.definitions context.surroundings limit place value =
      .ok (some verdict.isAccepted) := by
  have run : Validator.run context.surroundings limit (.reference ref) .strict place value =
      .ok verdict := strict ▸ ended
  rw [NamedRef.isA, found]
  cases node with
  | array node items least most => cases scalar
  | object node properties additional => cases scalar
  | _ => simp only [scalar, run, ↓reduceIte]

/-- Under strict options a name is never told that its answers do not belong to it, once enough
calls may be nested. -/
theorem answer_belongs (strict : context.settings = .strict) (sound : context.Sound (.named ref))
    (accepted : context.Judges (.named ref) value (.accepted answer)) :
    ∃ bound, ∀ limit, bound ≤ limit → ∀ place, ∃ belongs,
      ref.isA context.definitions context.surroundings limit place answer = .ok belongs ∧
        belongs ≠ some false := by
  have verbatim : context.settings.Verbatim := (strict ▸ Options.strict_faithful).verbatim
  generalize found : (context.definitions ref).resolve context.definitions = node
  have behind : (Schema.named ref).follow context.definitions (Schema.aliasLimit + 1) = node :=
    found
  cases scalar : node.isScalar context.definitions with
  | true =>
    have leaf := Schema.isLeaf_of_isScalar (found ▸ Schema.follow_ne_named _ _ _) scalar
    obtain ⟨rfl, _⟩ := scalar_of_follow verbatim sound (behind ▸ leaf.1) (behind ▸ leaf.2) accepted
    obtain ⟨fuel, origin, ended⟩ := accepted
    refine ⟨fuel, fun limit enough place => ⟨some true, ?_, by simp⟩⟩
    obtain ⟨verdict, again, alike⟩ := attempt_follows sound enough origin place
      (Value.Like.refl (fun _ => trivial) _) _ ended
    have checked := isA_of_isScalar found scalar strict again
    cases alike
    exact checked
  | false =>
    have tagged := hasTag_of_named sound accepted
    cases node with
    | array node items least most =>
      have container := container_of_follow sound (by rw [behind]; rfl) accepted
      refine ⟨0, fun limit _ place => ⟨some true, ?_, by simp⟩⟩
      rw [NamedRef.isA, found]
      simp only [tagged container]
    | object node properties additional =>
      have container := container_of_follow sound (by rw [behind]; rfl) accepted
      refine ⟨0, fun limit _ place => ⟨some true, ?_, by simp⟩⟩
      rw [NamedRef.isA, found]
      simp only [tagged container]
    | _ =>
      refine ⟨0, fun limit _ place => ⟨none, ?_, by simp⟩⟩
      rw [NamedRef.isA, found]
      exact if_neg (Bool.eq_false_iff.mp scalar)

/-! ## What passes for an instance -/

/-- The formats are checks given as functions, so they do not call other validators. -/
def Functional (context : Context) : Prop :=
  ∀ name inner, context.format name = some inner → ∃ check, inner = .custom check

/-- Whether nothing speaks against a value where values of the name are looked for: containers
carry its tag, scalars are accepted, and other names do not tell. -/
def recognises (context : Context) (ref : NamedRef) (value : Value) : Bool :=
  match (context.definitions ref).resolve context.definitions with
  | .object _ _ _ => value.hasTag (.named ref)
  | .array _ _ _ _ => value.hasTag (.named ref)
  | node =>
    if node.isScalar context.definitions then
      match context.attempt 2 node (.run 0) value with
      | .error _ => false
      | .ok verdict => verdict.isAccepted
    else true

/-- A scalar node judges alike at every place, however many calls it may nest beyond two. -/
theorem attempt_scalar (functional : context.Functional) {node : Schema}
    (scalar : node.isScalar context.definitions = true) (structural : ∀ ref, node ≠ .named ref)
    (value : Value) :
    ∃ verdict, ∀ fuel place, context.attempt (fuel + 2) node place value = .ok verdict := by
  rw [Schema.isScalar, Schema.resolve, Schema.aliasLimit,
    Schema.follow_structural structural] at scalar
  cases node with
  | null => cases value <;> exact ⟨_, fun fuel place => rfl⟩
  | boolean node rules => exact ⟨_, fun fuel place => rfl⟩
  | integer node rules => exact ⟨_, fun fuel place => rfl⟩
  | number node rules => exact ⟨_, fun fuel place => rfl⟩
  | string node rules =>
    have run : ∀ fuel place, context.attempt (fuel + 2) (.string node rules) place value =
        Validator.checkString context.format
          (fun inner => Validator.run context.surroundings (fuel + 1) inner context.settings place
            value) rules value := fun _ _ => rfl
    simp only [run]
    cases value with
    | string text =>
      simp only [Validator.checkString]
      cases textReason? rules text with
      | some reason => exact ⟨_, fun _ _ => rfl⟩
      | none =>
        cases named : rules.format with
        | none => exact ⟨_, fun _ _ => rfl⟩
        | some name =>
          cases found : context.format name with
          | none => simp only [found]; exact ⟨_, fun _ _ => rfl⟩
          | some inner =>
            obtain ⟨check, rfl⟩ := functional name inner found
            simp only [found, Validator.run]
            cases check context.settings (.string text) with
            | accepted answer => exact ⟨_, fun _ _ => rfl⟩
            | rejected violations => exact ⟨_, fun _ _ => rfl⟩
    | _ => exact ⟨_, fun _ _ => rfl⟩
  | _ => cases scalar

/-- What finds a scalar node behind names accepts what the node accepts, once the calls for the
names may be nested. -/
theorem attempt_of_follow {hops : Nat} {node : Schema} {verdict : Verdict}
    (found : schema.follow context.definitions hops = node)
    (scalar : node.isScalar context.definitions = true)
    (judged : ∀ fuel place, context.attempt (fuel + 2) node place value = .ok verdict) :
    ∃ verdict', verdict'.isAccepted = verdict.isAccepted ∧
      ∀ fuel place, context.attempt (fuel + 3 * hops + 2) schema place value = .ok verdict' := by
  induction hops generalizing schema with
  | zero =>
    subst found
    cases scalar
  | succ hops ih =>
    by_cases structural : ∀ ref, schema ≠ .named ref
    · rw [Schema.follow_structural structural] at found
      subst found
      exact ⟨verdict, rfl, fun fuel place => judged _ place⟩
    · push Not at structural
      obtain ⟨ref, rfl⟩ := structural
      have apart : (context.definitions ref).isContainer = false := by
        by_contra container
        rw [Bool.not_eq_false] at container
        have inside : context.shape (.named ref) = context.definitions ref := if_pos container
        obtain unknown | shape := follow_of_container (inside ▸ container) (hops + 1)
        · rw [unknown] at found
          subst found
          cases scalar
        · rw [shape, inside] at found
          subst found
          cases shape' : context.definitions ref <;> simp_all [Schema.isContainer] <;> cases scalar
      obtain ⟨inner, same, ended⟩ := ih found
      refine ⟨inner.map (fun answer => answer.withTags [.named ref]), ?_, fun fuel place => ?_⟩
      · cases inner <;> exact same
      · have fuel_eq : fuel + 3 * (hops + 1) + 2 = (fuel + 3 * hops + 2) + 3 := by omega
        rw [fuel_eq, attempt_named_other _ _ _ _ apart, ended]

/-- Once enough calls may be nested, the question whether a value belongs to a name has an answer,
which does not depend on the place, when a scalar behind the name judges every value. -/
theorem isA_of_settled (strict : context.settings = .strict) (ref : NamedRef)
    (settled : ∀ node, (context.definitions ref).resolve context.definitions = node →
      node.isScalar context.definitions = true → ∀ value, ∃ verdict, ∀ fuel place,
        context.attempt (fuel + 2) node place value = .ok verdict) :
    ∃ bound, ∀ limit, bound ≤ limit → ∀ place value, ∃ answer,
      ref.isA context.definitions context.surroundings limit place value = .ok answer ∧
        answer.getD true = context.recognises ref value := by
  generalize found : (context.definitions ref).resolve context.definitions = node at settled
  cases scalar : node.isScalar context.definitions with
  | true =>
    refine ⟨3 * (Schema.aliasLimit + 1) + 2, fun limit enough place value => ?_⟩
    obtain ⟨fuel, rfl⟩ := Nat.exists_eq_add_of_le enough
    obtain ⟨verdict, judged⟩ := settled node rfl scalar value
    have behind : (Schema.named ref).follow context.definitions (Schema.aliasLimit + 1) = node :=
      found
    obtain ⟨verdict', same, ended⟩ := attempt_of_follow behind scalar judged
    have run := ended fuel place
    have order :
        fuel + 3 * (Schema.aliasLimit + 1) + 2 = 3 * (Schema.aliasLimit + 1) + 2 + fuel := by
      omega
    rw [order] at run
    refine ⟨some verdict'.isAccepted, isA_of_isScalar found scalar strict run, ?_⟩
    have told := judged 0 (.run 0)
    rw [recognises, found]
    cases node with
    | array node items least most => cases scalar
    | object node properties additional => cases scalar
    | _ => simp only [scalar, told, same, ↓reduceIte, Option.getD_some]
  | false =>
    refine ⟨0, fun limit _ place value => ?_⟩
    rw [NamedRef.isA, recognises, found]
    cases node <;> simp_all

/-- Formats that do not call validators let every name be asked for. -/
theorem isA_iff_recognises (strict : context.settings = .strict) (functional : context.Functional)
    (ref : NamedRef) :
    ∃ bound, ∀ limit, bound ≤ limit → ∀ place value, ∃ answer,
      ref.isA context.definitions context.surroundings limit place value = .ok answer ∧
        answer.getD true = context.recognises ref value := by
  apply isA_of_settled strict ref
  intro node found scalar value
  have structural : ∀ other, node ≠ .named other := by
    rintro other rfl
    exact Schema.follow_ne_named _ _ _ other found
  exact attempt_scalar functional scalar structural value

/-- What is found behind names is reached, unless they are too many to follow. -/
theorem reaches_follow (definitions : Definitions) (hops : Nat) (schema : Schema)
    (known : schema.follow definitions hops ≠ .unknown) :
    schema.Reaches definitions (schema.follow definitions hops) := by
  induction hops generalizing schema with
  | zero => exact absurd rfl known
  | succ hops ih =>
    cases schema with
    | named ref =>
      have next : definitions ref ∈ (Schema.named ref).parts definitions :=
        List.mem_append_left _ Schema.definition_mem_facets
      exact .head next (ih _ known)
    | _ => exact .refl

/-- A name with only built-in formats behind it may be asked for. -/
theorem isA_of_sound (strict : context.settings = .strict) (sound : context.Sound (.named ref)) :
    ∃ bound, ∀ limit, bound ≤ limit → ∀ place value, ∃ answer,
      ref.isA context.definitions context.surroundings limit place value = .ok answer ∧
        answer.getD true = context.recognises ref value := by
  apply isA_of_settled strict ref
  rintro node found scalar value
  have leaf := Schema.isLeaf_of_isScalar (found ▸ Schema.follow_ne_named _ _ _) scalar
  have definition := sound.facet Schema.definition_mem_facets
  have inside : context.Sound node := by
    subst found
    exact definition.reached (reaches_follow _ _ _ leaf.2)
  obtain ⟨verdict, ended⟩ := leaf_ends leaf.1 inside.here.knownFormats 0 (.run 0) value
  exact ⟨verdict, leaf_settled leaf.1 inside.here.knownFormats ⟨_, _, ended⟩⟩

/-- Of an object only the tags tell whether it passes for an instance. -/
theorem recognises_object (ref : NamedRef) (content content' : Identity)
    (fields fields' : Fields Value) (tags : Tags) :
    context.recognises ref (.object content fields tags) =
      context.recognises ref (.object content' fields' tags) := by
  unfold recognises
  generalize (context.definitions ref).resolve context.definitions = node
  cases node <;> rfl

/-- Of an array only the tags tell whether it passes for an instance. -/
theorem recognises_array (ref : NamedRef) (content content' : Identity)
    (items items' : List Value) (tags : Tags) :
    context.recognises ref (.array content items tags) =
      context.recognises ref (.array content' items' tags) := by
  unfold recognises
  generalize (context.definitions ref).resolve context.definitions = node
  cases node <;> rfl

end Context

end Conform
