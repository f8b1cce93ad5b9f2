import Conform.Proofs.Discriminator.Selection
import Conform.Proofs.Revalidation.Clear
import Conform.Proofs.Wire.Traced

/-!
# Selecting again

A schema that took part leaves, under the key of each of its candidates, one of the literals that
the candidate admits. So a union that was decided by its key is decided alike by what the answer
has under that key, when the tags tell it to look there.
-/

namespace Conform

open Validator (readKey)

namespace Context

/-- A union that selected an option can read what decided it under its key again: the key is its
wire name, or an option has left its tag. A union that selected none selects none again. -/
def SelectsAgain (context : Context) (choices : List Schema) (stage final : Value) : Prop :=
  ∀ discriminator, Discriminator.find? context.definitions choices = some discriminator →
    ((∃ choice, context.selection? discriminator choices stage = some choice) →
      discriminator.wire = discriminator.key ∨ ∃ choice ∈ choices, choice ∈ final.tags) ∧
    (context.selection? discriminator choices stage = none →
      context.selection? discriminator choices final = none)

variable {context : Context} {whole schema : Schema} {value answer stage result final : Value}
  (network : context.settings = .fromNetwork) (sound : context.Sound whole)
  (accepted : context.Judges whole value (.accepted answer))

include sound accepted

/-- Where a chain of names takes part, so does the node behind it, under a name when it is a
container. -/
theorem Traced.behind {hops : Nat} {node : Schema}
    (behind : schema.follow context.definitions hops = node) (structural : node ≠ .unknown)
    (traced : context.Traced whole value answer schema stage result final) :
    ∃ owner stage result, context.shape owner = node ∧
      context.Traced whole value answer owner stage result final := by
  induction hops generalizing schema stage result with
  | zero => exact absurd behind.symm structural
  | succ hops ih =>
    cases schema with
    | named ref =>
      cases direct : (context.definitions ref).isContainer with
      | true =>
        refine ⟨.named ref, stage, result, ?_, traced⟩
        rw [shape, if_pos direct, ← behind, Schema.follow]
        rcases hops with _ | hops
        · exact absurd behind.symm structural
        · cases definition : context.definitions ref <;> rw [definition] at direct <;>
            first | rfl | cases direct
      | false =>
        obtain ⟨first, _, further⟩ := traced.of_definition sound accepted direct
        exact ih behind further
    | _ =>
      refine ⟨_, stage, result, ?_, traced⟩
      exact behind

variable (converted : value.Throughout context.Converted)
  (apart : answer.Throughout context.TypesApart)

include network converted apart

/-- An object type that took part leaves a literal under the name of each property that it
requires and restricts to literals. -/
theorem Traced.objectCandidate {node : Nat} {properties : List (Property Schema)}
    {additional : Additional Schema}
    (traced : context.Traced whole value answer schema stage result final)
    (shaped : context.shape schema = .object node properties additional) {candidate : Candidate}
    (member : candidate ∈ Schema.objectCandidates context.definitions properties) :
    ∃ literal, (final.field candidate.key).literal? = some literal ∧
      literal.isIn candidate.values = true := by
  obtain ⟨verbatim, wired, _, _⟩ := Options.wired_of_network network
  obtain ⟨property, among, made⟩ := List.mem_filterMap.mp member
  obtain ⟨listed, required⟩ := List.mem_filter.mp among
  obtain ⟨values, restricted, rfl⟩ := Option.map_eq_some_iff.mp made
  have own := sound.reached traced.reaches
  have becomes := traced.stage_becomes network sound accepted converted apart
  have kept := (traced.becomes network sound converted apart).tags_subset
  obtain ⟨place, content, fields, answers, tags, rfl, rfl, step⟩ :=
    (judged_step own (traced.judged accepted)).object shaped
  rw [wired, Bool.true_and] at step
  obtain ⟨found, extras, permitted, declared, others⟩ := step
  have step := declared property listed
  generalize found property.name = outcome at step
  cases step with
  | absent missing optional => cases optional.symm.trans required
  | present there judged =>
    have inside : property.body ∈ (context.shape schema).contents := by
      rw [shaped]
      exact Schema.body_mem_contents listed
    obtain ⟨literal, stands, admitted⟩ := literal_of_propertyLiterals?
      (own.reached (reaches_content inside)) restricted judged
    have denoted := stands.verbatim verbatim
    cases becomes with
    | scalar plain => cases plain
    | object more each =>
      have tagged := kept ((Tags.mem_insert _ _ _).mpr (.inr rfl))
      have same := (each _ _ _ (.declared tagged shaped listed)).eq_of_scalar
        (Value.tags?_of_literal? denoted)
      refine ⟨literal, ?_, admitted⟩
      rw [Value.field, same, denoted]

/-- A schema that took part leaves, under the key of each of its candidates, a literal that the
candidate admits. -/
theorem Traced.candidate {levels : Nat} {candidate : Candidate}
    (traced : context.Traced whole value answer schema stage result final)
    (member : candidate ∈ schema.candidatesWithin context.definitions levels) :
    ∃ literal, (final.field candidate.key).literal? = some literal ∧
      literal.isIn candidate.values = true := by
  induction levels generalizing schema candidate stage result with
  | zero => cases member
  | succ levels ih =>
    rw [Schema.candidatesWithin] at member
    split at member
    · next behind =>
      obtain ⟨owner, _, _, shaped, traced⟩ := traced.behind sound accepted behind (by simp)
      exact traced.objectCandidate network sound accepted converted apart shaped member
    · next node components behind =>
      obtain ⟨owner, _, _, shaped, traced⟩ := traced.behind sound accepted behind (by simp)
      obtain rfl := eq_of_shape shaped rfl
      rcases Schema.mem_foldl_addCandidates member with none | ⟨component, listed, own⟩
      · cases none
      obtain ⟨_, _, traced⟩ := traced.of_intersection network sound accepted listed
      exact ih traced own
    · cases member
    · next node first branches behind =>
      obtain ⟨owner, _, _, shaped, traced⟩ := traced.behind sound accepted behind (by simp)
      obtain rfl := eq_of_shape shaped rfl
      obtain ⟨own, agreed⟩ := Schema.mem_foldl_filter member
      obtain ⟨choice, handed, traced⟩ := traced.of_union sound accepted
      rcases List.mem_cons.mp (delegate_facet handed) with same | later
      · exact ih traced (same ▸ own)
      · obtain ⟨other, theirs, agrees⟩ := agreed choice later
        simp only [Candidate.agrees, Bool.and_eq_true, beq_iff_eq] at agrees
        obtain ⟨⟨keys, values⟩, _⟩ := agrees
        obtain ⟨literal, denoted, inside⟩ := ih traced theirs
        rw [← keys] at denoted
        exact ⟨literal, denoted, Candidate.isIn_of_sameValues values inside⟩
    · cases member

/-- A union that can read again what decided it selects the same option, or none when it selected
none. -/
theorem Traced.selection?_eq {node : Nat} {choices : List Schema} {discriminator : Discriminator}
    (traced : context.Traced whole value answer (.union node choices) stage result final)
    (found : Discriminator.find? context.definitions choices = some discriminator)
    (selectsAgain : context.SelectsAgain choices stage final) :
    context.selection? discriminator choices final =
      context.selection? discriminator choices stage := by
  have wired := (Options.wired_of_network network).wired
  obtain ⟨told, unselected⟩ := selectsAgain discriminator found
  cases selected : context.selection? discriminator choices stage with
  | none => exact unselected selected
  | some choice =>
    obtain ⟨other, handed, chosen⟩ := traced.of_union sound accepted
    have only : context.delegates stage (.union node choices) = [choice] := by
      rw [delegates, found]
      simp only [selected]
    obtain rfl : other = choice := List.mem_singleton.mp (only ▸ handed)
    have becomes := traced.stage_becomes network sound accepted converted apart
    cases becomes with
    | scalar plain =>
      cases stage with
      | object => cases plain
      | _ => cases selected
    | array => cases selected
    | @object _ _ fields fields' tags tags' _ _ =>
      obtain ⟨index, pointed, listed⟩ := Option.bind_eq_some_iff.mp selected
      obtain ⟨literal, _, owned⟩ := Option.bind_eq_some_iff.mp pointed
      obtain ⟨variant, candidate, listed', own, _⟩ :=
        (Discriminator.variantOf?_iff_assigns found literal index).mp owned
      obtain rfl := Option.some.inj (listed.symm.trans listed')
      obtain ⟨among, key⟩ := Candidate.mem_of_first? own
      obtain ⟨literal', denoted, admitted⟩ :=
        chosen.candidate network sound accepted converted apart among
      have read : Validator.dispatchKey discriminator choices context.settings tags' =
          discriminator.key := by
        rw [Validator.dispatchKey_of_network wired]
        rcases told ⟨_, selected⟩ with same | ⟨option, member, tagged⟩
        · rw [same, ite_self]
        · refine if_pos (List.any_eq_true.mpr ⟨option, member, ?_⟩)
          exact (Tags.has_eq_true_iff _ _).mpr tagged
      rw [selection?, decisive, read, ← key]
      have again := (Discriminator.variantOf?_iff_assigns found literal' index).mpr
        ⟨other, candidate, listed, own, admitted⟩
      exact (Discriminator.chosen?_of_owned denoted again choices).trans listed

/-- A container type that took part has left its tag, and so has a name on a container. -/
theorem Traced.tagged (traced : context.Traced whole value answer schema stage result final)
    (held : final.tags?.isSome = true)
    (lasting : (context.shape schema).isContainer = true ∨ ∃ ref, schema = .named ref) :
    schema ∈ final.tags := by
  have step := judged_step (sound.reached traced.reaches) (traced.judged accepted)
  have becomes := traced.becomes network sound converted apart
  refine becomes.tags_subset ?_
  by_cases container : (context.shape schema).isContainer = true
  · cases shaped : context.shape schema with
    | array =>
      obtain ⟨_, _, _, _, _, rfl, _⟩ := step.array shaped
      exact (Tags.mem_merge _ _ _).mpr (.inr (.head _))
    | object =>
      obtain ⟨_, _, _, _, _, _, rfl, _⟩ := step.object shaped
      exact (Tags.mem_insert _ _ _).mpr (.inr rfl)
    | _ =>
      rw [shaped] at container
      cases container
  · obtain ⟨ref, rfl⟩ := lasting.resolve_left container
    cases direct : (context.definitions ref).isContainer with
    | true =>
      rw [shape, if_pos direct, direct] at container
      exact absurd rfl container
    | false =>
      obtain ⟨first, rfl, _⟩ := traced.of_definition sound accepted direct
      cases first with
      | array => exact (Tags.mem_merge _ _ _).mpr (.inr (.head _))
      | object => exact (Tags.mem_merge _ _ _).mpr (.inr (.head _))
      | _ =>
        cases becomes
        cases held

/-- A union of names and container types that its discriminator decides in full can be decided
again. -/
theorem Traced.selectsAgain {node : Nat} {choices : List Schema}
    (traced : context.Traced whole value answer (.union node choices) stage result final)
    (lasting : ∀ choice ∈ choices,
      (context.shape choice).isContainer = true ∨ ∃ ref, choice = .named ref)
    (decisive : (Schema.union node choices).Decisive context.definitions) :
    context.SelectsAgain choices stage final := by
  obtain ⟨_, decided, complete⟩ := decisive
  intro discriminator found
  obtain rfl := Option.some.inj (found.symm.trans decided)
  refine ⟨fun ⟨selected, selects⟩ => .inr ?_, fun none => ?_⟩
  · obtain ⟨choice, handed, chosen⟩ := traced.of_union sound accepted
    have member := delegate_facet handed
    have becomes := traced.stage_becomes network sound accepted converted apart
    refine ⟨choice, member, chosen.tagged network sound accepted converted apart ?_
      (lasting choice member)⟩
    cases becomes with
    | scalar plain =>
      cases stage with
      | object => cases plain
      | _ => cases selects
    | array => rfl
    | object => rfl
  · have step := (judged_step (sound.reached traced.reaches) (traced.judged accepted)).by_options
    rcases step.by_selection found with ⟨_, some, _⟩ | ⟨_, ⟨_, _, refused⟩ | ⟨_, judged, amounts⟩⟩
    · cases none.symm.trans some
    · cases refused
    · obtain ⟨_, refused⟩ := tallied_of_complete complete judged
      cases refused.symm.trans amounts

end Context

end Conform
