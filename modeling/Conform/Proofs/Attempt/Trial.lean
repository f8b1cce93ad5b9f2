import Conform.Proofs.Lists
import Conform.Validator.Run

/-!
# What a trial of options amounts to

A trial gathers a verdict of each option. One option that accepts alone decides. Several
that accept leave the value undecided unless exactly one of them is preferred, and no
option is preferred for a value without tags.
-/

namespace Conform

namespace Validator

/-- What the verdicts of options amount to, counting from `position`. -/
def tally (value : Value) : Nat → List Validator → List Verdict → Trial
  | position, option :: options, .accepted answer :: verdicts =>
    let trial := tally value (position + 1) options verdicts
    if isPreferred option value answer then
      { trial with preferred := (position, answer) :: trial.preferred }
    else { trial with matched := (position, answer) :: trial.matched }
  | position, _ :: options, .rejected violations :: verdicts =>
    let trial := tally value (position + 1) options verdicts
    { trial with failures := .group [] (.option position) violations :: trial.failures }
  | _, _, _ => ⟨[], [], []⟩

/-- What verdicts amount to depends on the options by the names they stand for alone. -/
theorem tally_congr (value : Value) (position : Nat) {options options' : List Validator}
    {verdicts : List Verdict} (names : options.map name? = options'.map name?) :
    tally value position options verdicts = tally value position options' verdicts := by
  induction options generalizing position options' verdicts with
  | nil =>
    obtain rfl := List.map_eq_nil_iff.mp names.symm
    rfl
  | cons option rest ih =>
    cases options' with
    | nil => cases names
    | cons option' rest' =>
      obtain ⟨same, names⟩ := List.cons.inj names
      rcases verdicts with _ | ⟨answer | violations, verdicts⟩
      · rfl
      · have preferred : isPreferred option value answer = isPreferred option' value answer := by
          rw [isPreferred, isPreferred, same]
        rw [tally, tally, preferred, ih (position + 1) names]
      · rw [tally, tally, ih (position + 1) names]

/-- Trying options gathers a verdict of each. -/
theorem tryOptions_ended {check : Nat → Validator → Attempt} {value : Value} {position : Nat}
    {options : List Validator} {trial : Trial}
    (ended : tryOptions check value position options = .ok trial) :
    ∃ verdicts, List.Forall₂
      (fun option verdict => ∃ position, check position option = .ok verdict) options verdicts ∧
        trial = tally value position options verdicts := by
  induction options generalizing position trial with
  | nil =>
    obtain rfl := Except.ok.inj ended
    exact ⟨[], .nil, rfl⟩
  | cons option rest ih =>
    rw [tryOptions] at ended
    split at ended
    · cases ended
    · next verdict first =>
      split at ended
      · cases ended
      · next others found =>
        obtain ⟨verdicts, judged, rfl⟩ := ih found
        refine ⟨verdict :: verdicts, .cons ⟨_, first⟩ judged, ?_⟩
        cases verdict with
        | accepted answer =>
          by_cases preferred : isPreferred option value answer = true <;>
            simp only [tally, preferred, Bool.false_eq_true, ↓reduceIte] at ended ⊢ <;>
            exact (Except.ok.inj ended).symm
        | rejected violations => exact (Except.ok.inj ended).symm

/-- A trial of options ends with what their verdicts amount to. -/
theorem checkOneOf_ended {check : Nat → Validator → Attempt} {options : List Validator}
    {value : Value} {verdict : Verdict} (ended : checkOneOf check options value = .ok verdict) :
    ∃ verdicts, List.Forall₂
      (fun option result => ∃ position, check position option = .ok result) options verdicts ∧
        verdict = (tally value 1 options verdicts).verdict := by
  unfold checkOneOf at ended
  split at ended
  · cases ended
  · next trial tried =>
    obtain ⟨verdicts, judged, rfl⟩ := tryOptions_ended tried
    exact ⟨verdicts, judged, (Except.ok.inj ended).symm⟩

namespace Trial

/-- The answers of the accepting options, preferred ones first. -/
def answers (trial : Trial) : List Value :=
  trial.preferred.map Prod.snd ++ trial.matched.map Prod.snd

variable {trial : Trial} {answer : Value}

/-- What a trial accepts is the answer of an option. -/
theorem mem_answers_of_verdict (accepted : trial.verdict = .accepted answer) :
    answer ∈ trial.answers := by
  obtain ⟨preferred, matched, failures⟩ := trial
  unfold verdict at accepted
  split at accepted
  · next found =>
    obtain rfl := Verdict.accepted.inj accepted
    simp only at found
    simp [answers, found]
  · cases accepted
  · next none =>
    split at accepted
    · next found =>
      obtain rfl := Verdict.accepted.inj accepted
      simp only at none found
      simp [answers, none, found]
    · cases accepted
    · cases accepted

/-- An option that accepts alone decides. -/
theorem verdict_of_answers_eq (alone : trial.answers = [answer]) :
    trial.verdict = .accepted answer := by
  obtain ⟨preferred, matched, failures⟩ := trial
  rcases List.append_eq_singleton_iff.mp alone with ⟨first, second⟩ | ⟨first, second⟩
  · obtain rfl := List.map_eq_nil_iff.mp first
    obtain ⟨⟨position, _⟩, rfl, rfl⟩ := List.map_eq_singleton_iff.mp second
    rfl
  · obtain ⟨⟨position, _⟩, rfl, rfl⟩ := List.map_eq_singleton_iff.mp first
    rfl

/-- A trial refuses because no option accepts, or because several do. -/
theorem verdict_rejected {violations : List Violation}
    (rejected : trial.verdict = .rejected violations) :
    (trial.answers = [] ∧ violations = [.group [] .noOption trial.failures]) ∨
      (2 ≤ trial.answers.length ∧
        ((∃ numbers, violations = [.here (.manyPreferred numbers)]) ∨
          ∃ numbers, violations = [.here (.manyOptions numbers)])) := by
  obtain ⟨preferred, matched, failures⟩ := trial
  unfold verdict at rejected
  split at rejected
  · cases rejected
  · next found =>
    simp only at found
    obtain rfl := Verdict.rejected.inj rejected
    refine .inr ⟨?_, .inl ⟨_, rfl⟩⟩
    simp only [answers, found, List.length_append, List.length_map, List.length_cons]
    omega
  · next none =>
    split at rejected
    · cases rejected
    · next found =>
      simp only at none found
      obtain rfl := Verdict.rejected.inj rejected
      refine .inr ⟨?_, .inr ⟨_, rfl⟩⟩
      simp only [answers, none, found, List.length_append, List.length_map, List.length_cons]
      omega
    · next nothing =>
      simp only at none nothing
      obtain rfl := Verdict.rejected.inj rejected
      exact .inl ⟨by simp [answers, none, nothing], rfl⟩

/-- What a trial answers is the only preferred match, or the only match. -/
theorem verdict_accepted (accepted : trial.verdict = .accepted answer) :
    (∃ number, trial.preferred = [(number, answer)]) ∨ trial.answers = [answer] := by
  unfold Trial.verdict at accepted
  split at accepted
  · next number answer found =>
    obtain rfl := Verdict.accepted.inj accepted
    exact .inl ⟨number, found⟩
  · cases accepted
  · next none =>
    split at accepted
    · next number answer found =>
      obtain rfl := Verdict.accepted.inj accepted
      exact .inr (by simp [answers, none, found])
    · cases accepted
    · cases accepted

end Trial

/-- The answers of a trial are those of the accepting verdicts, up to their order. -/
theorem tally_answers (value : Value) (position : Nat) {options : List Validator}
    {verdicts : List Verdict} (lengths : options.length = verdicts.length) :
    (tally value position options verdicts).answers.Perm (verdicts.filterMap Verdict.value?) := by
  induction options generalizing position verdicts with
  | nil =>
    obtain rfl := List.length_eq_zero_iff.mp lengths.symm
    exact .nil
  | cons option rest ih =>
    rcases verdicts with _ | ⟨verdict, others⟩
    · cases lengths
    have further := ih (position + 1) (Nat.succ.inj lengths)
    cases verdict with
    | accepted answer =>
      simp only [tally, List.filterMap_cons, Verdict.value?]
      split
      · exact further.cons answer
      · exact List.perm_middle.trans (further.cons answer)
    | rejected violations => exact further

/-- A preferred match is the answer of an option that is preferred for it. -/
theorem mem_preferred_tally {value answer : Value} {position number : Nat}
    {options : List Validator} {verdicts : List Verdict}
    (member : (number, answer) ∈ (tally value position options verdicts).preferred) :
    ∃ (index : Nat) (option : Validator), options[index]? = some option ∧
      verdicts[index]? = some (.accepted answer) ∧ isPreferred option value answer = true := by
  induction options generalizing position verdicts with
  | nil => cases member
  | cons option rest ih =>
    have later : ∀ {others : List Verdict} (verdict : Verdict),
        (number, answer) ∈ (tally value (position + 1) rest others).preferred →
        ∃ (index : Nat) (other : Validator), (option :: rest)[index]? = some other ∧
          (verdict :: others)[index]? = some (.accepted answer) ∧
            isPreferred other value answer = true := by
      intro others verdict member
      obtain ⟨index, other, listed, accepted, preferred⟩ := ih member
      exact ⟨index + 1, other, listed, accepted, preferred⟩
    rcases verdicts with _ | ⟨first | causes, others⟩
    · cases member
    · simp only [tally] at member
      split at member
      · next preferred =>
        rcases List.mem_cons.mp member with same | further
        · cases same
          exact ⟨0, option, rfl, rfl, preferred⟩
        · exact later _ further
      · exact later _ member
    · exact later _ member

/-- What verdicts amount to when they accept is one of them. -/
theorem mem_of_tally_verdict {value answer : Value} {position : Nat} {options : List Validator}
    {verdicts : List Verdict} (lengths : options.length = verdicts.length)
    (amounts : (tally value position options verdicts).verdict = .accepted answer) :
    .accepted answer ∈ verdicts := by
  have member := Trial.mem_answers_of_verdict amounts
  rw [(tally_answers value position lengths).mem_iff, List.mem_filterMap] at member
  obtain ⟨verdict, inside, found⟩ := member
  cases verdict with
  | accepted other =>
    obtain rfl := Option.some.inj found
    exact inside
  | rejected violations => cases found

/-- The only verdict that accepts decides. -/
theorem tally_verdict_of_alone (value : Value) (position : Nat) {options : List Validator}
    {verdicts : List Verdict} (lengths : options.length = verdicts.length) {index : Nat}
    {answer : Value} (found : verdicts[index]? = some (.accepted answer))
    (alone : ∀ (other : Nat) (answer' : Value),
      verdicts[other]? = some (.accepted answer') → other = index) :
    (tally value position options verdicts).verdict = .accepted answer := by
  refine Trial.verdict_of_answers_eq (List.perm_singleton.mp ?_)
  refine (tally_answers value position lengths).trans (List.Perm.of_eq ?_)
  refine filterMap_eq_singleton_iff.mpr ⟨index, by rw [found]; rfl, fun other some => ?_⟩
  obtain ⟨answer', accepted⟩ := Option.isSome_iff_exists.mp some
  obtain ⟨verdict, listed, chosen⟩ := Option.bind_eq_some_iff.mp accepted
  cases verdict with
  | accepted other' => exact alone other other' listed
  | rejected violations => cases chosen

/-- Where no verdict accepts, the value is refused. -/
theorem tally_verdict_of_none (value : Value) (position : Nat) {options : List Validator}
    {verdicts : List Verdict} (lengths : options.length = verdicts.length)
    (none : ∀ (index : Nat) (answer : Value), verdicts[index]? ≠ some (.accepted answer)) :
    ∃ violations, (tally value position options verdicts).verdict = .rejected violations := by
  cases amounts : (tally value position options verdicts).verdict with
  | rejected violations => exact ⟨violations, rfl⟩
  | accepted answer =>
    have member : .accepted answer ∈ verdicts := mem_of_tally_verdict lengths amounts
    obtain ⟨index, found⟩ := List.getElem?_of_mem member
    exact absurd found (none index answer)

/-- No option is preferred for a value without tags. -/
theorem tally_preferred_eq_nil {value : Value} (untagged : value.tags = []) (position : Nat)
    (options : List Validator) (verdicts : List Verdict) :
    (tally value position options verdicts).preferred = [] := by
  have common : ∀ option answer, isPreferred option value answer = false := by
    intro option answer
    unfold isPreferred
    cases option.name? with
    | none => rfl
    | some ref => simp [Value.hasTag, untagged, Tags.has]
  induction options generalizing position verdicts with
  | nil => rfl
  | cons option rest ih =>
    rcases verdicts with _ | ⟨verdict, others⟩
    · rfl
    cases verdict with
    | accepted answer =>
      simp only [tally, common, Bool.false_eq_true, ↓reduceIte]
      exact ih (position + 1) others
    | rejected violations => exact ih (position + 1) others

/-- For a value without tags, verdicts accept only when one of them does alone. -/
theorem alone_of_tally_verdict {value answer : Value} (untagged : value.tags = [])
    {position : Nat} {options : List Validator} {verdicts : List Verdict}
    (lengths : options.length = verdicts.length)
    (amounts : (tally value position options verdicts).verdict = .accepted answer) :
    ∃ index : Nat, verdicts[index]? = some (.accepted answer) ∧
      ∀ (other : Nat) (answer' : Value),
        verdicts[other]? = some (.accepted answer') → other = index := by
  have answers := tally_answers value position lengths
  have single : (tally value position options verdicts).answers = [answer] := by
    have common := tally_preferred_eq_nil untagged position options verdicts
    unfold Trial.verdict at amounts
    unfold Trial.answers
    rw [common] at amounts ⊢
    simp only at amounts
    split at amounts
    · next found =>
      obtain rfl := Verdict.accepted.inj amounts
      rw [found]
      rfl
    · cases amounts
    · cases amounts
  rw [single] at answers
  obtain ⟨index, found, alone⟩ :=
    filterMap_eq_singleton_iff.mp (List.singleton_perm.mp answers).symm
  obtain ⟨verdict, listed, chosen⟩ := Option.bind_eq_some_iff.mp found
  refine ⟨index, ?_, fun other answer' accepted => alone other (by rw [accepted]; rfl)⟩
  cases verdict with
  | accepted other =>
    obtain rfl := Option.some.inj chosen
    exact listed
  | rejected violations => cases chosen

/-- Every refusal of an option is among the failures of the trial. -/
theorem mem_failures_tally (value : Value) (position : Nat) {options : List Validator}
    {verdicts : List Verdict} (lengths : options.length = verdicts.length)
    {violations : List Violation} (refused : .rejected violations ∈ verdicts) :
    ∃ number, .group [] (.option number) violations ∈
      (tally value position options verdicts).failures := by
  induction options generalizing position verdicts with
  | nil =>
    obtain rfl := List.length_eq_zero_iff.mp lengths.symm
    cases refused
  | cons option rest ih =>
    rcases verdicts with _ | ⟨verdict, others⟩
    · cases lengths
    cases verdict with
    | accepted answer =>
      rcases List.mem_cons.mp refused with same | later
      · cases same
      obtain ⟨number, member⟩ := ih (position + 1) (Nat.succ.inj lengths) later
      refine ⟨number, ?_⟩
      simp only [tally]
      split <;> exact member
    | rejected causes =>
      rcases List.mem_cons.mp refused with same | later
      · obtain rfl := Verdict.rejected.inj same
        exact ⟨position, .head _⟩
      obtain ⟨number, member⟩ := ih (position + 1) (Nat.succ.inj lengths) later
      exact ⟨number, .tail _ member⟩

/-- Every failure of a trial is the refusal of an option. -/
theorem of_mem_failures_tally (value : Value) (position : Nat) {options : List Validator}
    {verdicts : List Verdict} {violation : Violation}
    (member : violation ∈ (tally value position options verdicts).failures) :
    ∃ number violations, .rejected violations ∈ verdicts ∧
      violation = .group [] (.option number) violations := by
  induction options generalizing position verdicts with
  | nil => cases member
  | cons option rest ih =>
    have later : ∀ {others : List Verdict} (verdict : Verdict),
        violation ∈ (tally value (position + 1) rest others).failures →
        ∃ number violations, .rejected violations ∈ verdict :: others ∧
          violation = .group [] (.option number) violations := by
      intro others verdict member
      obtain ⟨number, violations, refused, same⟩ := ih (position + 1) member
      exact ⟨number, violations, .tail _ refused, same⟩
    rcases verdicts with _ | ⟨answer | causes, others⟩
    · cases member
    · simp only [tally] at member
      split at member <;> exact later _ member
    · rcases List.mem_cons.mp member with rfl | further
      · exact ⟨position, causes, .head _, rfl⟩
      · exact later _ further

end Validator

end Conform
