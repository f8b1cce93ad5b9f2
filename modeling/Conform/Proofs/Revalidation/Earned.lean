import Conform.Proofs.Discriminator.Marks
import Conform.Proofs.Revalidation.Ambiguity

/-!
# Tags are earned

A tag tells that its schema accepted the container, which may have carried fewer tags then and
had its fields in another order. So the schema has granted the container as it is now: it
accepted a value with the same data. Accepting a value gives no other tags, at any depth. What
was granted need not be accepted again, but only an ambiguity can prevent that.
-/

namespace Conform.Context

open Violation (AnyAmbiguous)

variable {context : Context} {schema : Schema} {value answer : Value}

/-- The schema accepted a value with the same data. -/
def Granted (context : Context) (schema : Schema) (value : Value) : Prop :=
  ∃ item answer, item.Throughout Value.Keyed ∧ item.Agrees value ∧
    context.Judges schema item (.accepted answer)

/-- Every tag that the value carries was granted. -/
def Earned (context : Context) (value : Value) : Prop :=
  ∀ schema, value.hasTag schema = true → context.Granted schema value

/-- What is accepted is granted, and so is the answer. -/
theorem granted_of_judged (strict : context.settings = .strict) (sound : context.Sound schema)
    (keyed : value.Throughout Value.Keyed)
    (judged : context.Judges schema value (.accepted answer)) : context.Granted schema answer :=
  ⟨value, answer, keyed, (answer_restates strict sound keyed judged).agrees, judged⟩

/-- Only the data of a value counts. -/
theorem Granted.agrees (granted : context.Granted schema value) (agree : value.Agrees answer) :
    context.Granted schema answer := by
  obtain ⟨item, result, keyed, same, judged⟩ := granted
  exact ⟨item, result, keyed, same.trans agree, judged⟩

/-- Tags stay earned next to a new one that was granted. -/
theorem Earned.tagged (earned : context.Earned value) (agree : value.Agrees answer)
    (granted : context.Granted schema answer)
    (tags : ∀ other, answer.hasTag other = true → value.hasTag other = true ∨ other = schema) :
    context.Earned answer := by
  intro other tag
  rcases tags other tag with old | rfl
  · exact (earned other old).agrees agree
  · exact granted

/-- A value without tags owes none. -/
theorem earned_of_untagged (untagged : value.tags = []) : context.Earned value := by
  intro schema tag
  rw [Value.hasTag, untagged] at tag
  cases tag

/-- In the answer for a value whose tags are earned at every depth, they are again. -/
theorem answer_earned (strict : context.settings = .strict) (sound : context.Sound schema)
    (keyed : value.Throughout Value.Keyed) (earned : value.Throughout context.Earned)
    (judged : context.Judges schema value (.accepted answer)) :
    answer.Throughout context.Earned := by
  have faithful : context.settings.Faithful := strict ▸ Options.strict_faithful
  obtain ⟨verbatim, inward, lone, keep⟩ := faithful
  -- the judgement itself is what grants the tag that it adds
  suffices all : context.Judges schema value (.accepted answer) → value.Throughout Value.Keyed →
      value.Throughout context.Earned → answer.Throughout context.Earned from
    all judged keyed earned
  refine accepted_induction (motive := fun schema value answer =>
    context.Judges schema value (.accepted answer) → value.Throughout Value.Keyed →
      value.Throughout context.Earned → answer.Throughout context.Earned) ?_ sound sound judged
  clear judged
  intro schema value answer sound step own keyed earned
  have restates := answer_restates strict sound keyed own
  have granted := granted_of_judged strict sound keyed own
  cases step with
  | leaf leaf judged =>
    rcases leaf_answer leaf sound.here.knownFormats judged with rfl | ⟨_, loose⟩
    · exact earned
    · exact absurd verbatim loose
  | @items node items least most list answers place shape found count judged =>
    obtain ⟨content, tags, rfl⟩ := Validator.itemsOf?_eq_some lone found
    cases found
    refine Value.throughout_array_iff.mpr
      ⟨earned.here.tagged restates.agrees granted (fun other tag => ?_), fun answer member => ?_⟩
    · rw [Value.hasTag, Tags.has_eq_true_iff] at tag ⊢
      exact ((Tags.mem_merge _ _ _).mp tag).imp_right List.mem_singleton.mp
    · obtain ⟨item, inside, judged⟩ := forall₂_mem_right judged member
      exact judged.2.2 answer rfl judged.2.1 (keyed.item inside) (earned.item inside)
  | @fields node properties additional content fields answers tags place shape object judged =>
    subst object
    rw [inward, Bool.false_and] at judged
    refine Value.throughout_object_iff.mpr
      ⟨earned.here.tagged restates.agrees granted (fun other tag => ?_), fun entry member => ?_⟩
    · rw [Value.hasTag, Tags.has_eq_true_iff] at tag ⊢
      exact (Tags.mem_insert _ _ _).mp tag
    · obtain ⟨item, inside, _, ⟨_, same⟩ | ⟨body, _, judged⟩⟩ := judged.under_key member
      · exact same ▸ earned.field inside
      · exact judged.2.2 entry.2 rfl judged.2.1 (keyed.field inside) (earned.field inside)
  | union shape judged =>
    obtain ⟨choice, _, _, judged, inner⟩ := judged.accepted
    exact inner answer rfl judged keyed earned
  | @intersection node components _ shape chain =>
    subst shape
    have kept := chain.accumulates
      (fun _ item => item.Throughout Value.Keyed ∧ item.Throughout context.Earned)
      [] ⟨keyed, earned⟩ (List.nil_subset _) ?_
    · exact kept.2
    · intro _ component member item answer before judged
      have sound := sound.facet member
      have next := answer_restates strict sound before.1 judged.2.1
      exact ⟨⟨next.keyed, judged.2.2 answer rfl judged.2.1 before.1 before.2⟩,
        answer_grows verbatim sound judged.2.1⟩
  | @named ref inner verdict shape other judged tagged =>
    subst shape
    obtain ⟨first, rfl, rfl⟩ := accepted_of_map tagged
    have before := judged.2.2 first rfl judged.2.1 keyed earned
    refine before.withTags (before.here.tagged (.withTags first _) granted (fun other tag => ?_))
    exact (Value.of_hasTag_withTags tag).imp_right List.mem_singleton.mp

/-- A schema refuses what it granted only because several options match, and no scalar. -/
theorem Granted.judged (strict : context.settings = .strict) (sound : context.Sound schema)
    (granted : context.Granted schema value) (keyed : value.Throughout Value.Keyed) :
    (value.tags? = none → ∃ answer, context.Judges schema value (.accepted answer)) ∧
      ∀ violations, context.Judges schema value (.rejected violations) →
        AnyAmbiguous violations := by
  obtain ⟨item, answer, keyed', agree, judged⟩ := granted
  constructor
  · intro scalar
    have same : item = value := agree.symm.eq_of_scalar scalar
    exact ⟨answer, same ▸ judged⟩
  · intro violations refused
    exact refused_ambiguously strict sound keyed' keyed agree judged refused

end Conform.Context
