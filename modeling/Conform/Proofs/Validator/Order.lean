import Conform.Proofs.Attempt.Termination

/-!
# The order of checks

The declared properties of an object are checked one after the other, and the first that does
not pass ends the check. What a property comes to does not depend on when it is checked: its
answer is made at a place of its own. So an object whose properties all pass is answered alike
in every order, and otherwise the order decides which property is blamed, and nothing else.

The comparison of two runs that nest different numbers of calls rests on this: what a run has
settled stays settled when it may nest more of them.
-/

namespace Conform

namespace Validator

/-! ## Deeper runs -/

section

variable {surroundings : Surroundings}

/-- The check of a string follows that of its format. -/
theorem checkString_follows {format : String → Option Validator}
    {check check' : Validator → Attempt}
    (each : ∀ inner, Follows (Verdict.Like Eq) (check inner) (check' inner))
    (rules : StringRules) (value : Value) :
    Follows (Verdict.Like Eq) (checkString format check rules value)
      (checkString format check' rules value) := by
  have same (verdict : Verdict) : Follows (Verdict.Like Eq) (.ok verdict) (.ok verdict) :=
    .ok (.refl (fun _ => rfl) verdict)
  unfold checkString
  split
  · split
    · exact same _
    · split
      · exact same _
      · split
        · exact same _
        · next inner _ =>
          have first := each inner
          generalize check inner = left at first ⊢
          generalize check' inner = right at first ⊢
          cases left with
          | error stop => exact .error stop _
          | ok verdict =>
            obtain ⟨_, rfl, alike⟩ := first verdict rfl
            obtain rfl := Verdict.eq_of_like alike
            cases verdict <;> exact same _
  · exact same _

/-- A run that may nest more calls ends as the other did. -/
theorem run_follows {fuel fuel' : Nat} (enough : fuel ≤ fuel') (validator : Validator)
    (options : Options) (place : Identity) (value : Value) :
    Follows (Verdict.Like Eq) (run surroundings fuel validator options place value)
      (run surroundings fuel' validator options place value) := by
  induction fuel generalizing fuel' validator place value with
  | zero => exact .error _ _
  | succ fuel ih =>
    obtain ⟨more, rfl, fewer⟩ := exists_eq_add_of_add_le enough
    have deeper (inner : Validator) (place : Identity) (item item' : Value)
        (same : item.Like Eq item') :
        Follows (Verdict.Like Eq) (run surroundings fuel inner options place item)
          (run surroundings more inner options place item') := by
      rw [Value.eq_of_like same]
      exact ih fewer inner place item'
    have alike := Value.Like.refl (fun _ => rfl : ∀ identity : Identity, identity = identity) value
    have same (verdict : Verdict) : Follows (Verdict.Like Eq) (.ok verdict) (.ok verdict) :=
      .ok (.refl (fun _ => rfl) verdict)
    cases validator with
    | string rules =>
      exact checkString_follows (fun inner => ih fewer inner place value) rules value
    | array items least most tag =>
      exact checkArray_follows (fun index => deeper items _) least most tag options rfl alike
    | object properties order additional tag =>
      exact checkObject_follows (fun index property _ => deeper property.body _)
        (fun index body _ => deeper body _) order tag options rfl alike
    | oneOf choices =>
      exact checkOneOf_follows (fun position option _ => ih fewer option _ value) alike
    | allOf components =>
      exact checkComponents_follows (fun position component _ => deeper component _) 1 alike []
    | dispatch discriminator variants choices =>
      exact checkDispatch_follows (fun choice _ => ih fewer choice place value)
        (ih fewer _ place value) variants options alike
    | optional inner =>
      cases value <;> first | exact same _ | exact ih fewer inner place _
    | nullable inner =>
      cases value <;> first | exact same _ | exact ih fewer inner place _
    | tagged inner tag =>
      have first := ih fewer inner place value
      simp only [run]
      generalize run surroundings fuel inner options place value = left at first ⊢
      generalize run surroundings more inner options place value = right at first ⊢
      cases left with
      | error stop => exact .error stop _
      | ok verdict =>
        obtain ⟨_, rfl, alike⟩ := first verdict rfl
        exact .ok (alike.map [tag])
    | labelled ref inner => exact ih fewer inner place value
    | reference ref =>
      simp only [run]
      split
      · exact ih fewer _ place value
      · exact .error _ _
    | onDemand cell inner =>
      simp only [run]
      split
      · exact ih fewer inner place value
      · exact .error _ _
    | void => cases value <;> exact same _
    | null => cases value <;> exact same _
    | _ => exact same _

/-- What a run has settled stays settled when it may nest more calls. -/
theorem run_mono {fuel fuel' : Nat} (enough : fuel ≤ fuel') {validator : Validator}
    {options : Options} {place : Identity} {value : Value} {verdict : Verdict}
    (ended : run surroundings fuel validator options place value = .ok verdict) :
    run surroundings fuel' validator options place value = .ok verdict := by
  obtain ⟨_, ended', alike⟩ := run_follows enough validator options place value verdict ended
  rwa [← Verdict.eq_of_like alike] at ended'

end

/-! ## Properties in any order -/

section

variable {α : Type}

/-- What the check of a declared property by itself comes to: an answer, none when the property
may be absent, or the violations that it is refused with. -/
def checkProperty (check : Nat → α → Value → Attempt) (wire : Bool) (fields : Fields Value)
    (index : Nat) (property : Property α) : Attempts (Option Value) :=
  let value := fields.lookup (readKey wire property)
  if value.isUndefined then
    if property.required then .ok (.error [.single [property.name] .missingProperty])
    else .ok (.ok none)
  else
    match check index property.body value with
    | .error stop => .error stop
    | .ok (.rejected violations) => .ok (.error (violations.map (Violation.under property.name)))
    | .ok (.accepted answer) => .ok (.ok (some answer))

/-- What the declared property at an index comes to. -/
def outcomeAt (check : Nat → α → Value → Attempt) (wire : Bool) (properties : List (Property α))
    (fields : Fields Value) (index : Nat) : Attempts (Option Value) :=
  match properties[index]? with
  | some property => checkProperty check wire fields index property
  | none => .ok (.ok none)

/-- The outcome of a property does not depend on how its body is given. -/
theorem outcomeAt_map {β : Type} (check : Nat → β → Value → Attempt) (change : α → β)
    (wire : Bool) (properties : List (Property α)) (fields : Fields Value) (index : Nat) :
    outcomeAt check wire (properties.map (Property.mapBody change)) fields index =
      outcomeAt (fun index body => check index (change body)) wire properties fields index := by
  rw [outcomeAt, outcomeAt, List.getElem?_map]
  cases properties[index]? <;> rfl

end

section

variable {check checkExtra : Nat → Validator → Value → Attempt} {wire : Bool}
  {properties : List (Property Validator)} {fields : Fields Value}

/-- The answers with that of the property at an index. -/
def record (properties : List (Property Validator)) (answers : Fields Value) (index : Nat) :
    Option Value → Fields Value
  | none => answers
  | some answer =>
    match properties[index]? with
    | none => answers
    | some property => answers.insert property.name answer

/-- Recording an answer writes it under the name of its property and nothing else. -/
theorem get?_record (names : (Property.names properties).Nodup) (answers : Fields Value)
    (first : Nat) (found : Option Value) {index : Nat} {property : Property Validator}
    (listed : properties[index]? = some property) :
    (record properties answers first found).get? property.name =
      (if index = first then found else none).or (answers.get? property.name) := by
  cases found with
  | none => simp [record]
  | some answer =>
    by_cases same : index = first
    · subst same
      simp [record, listed, Fields.get?_insert_self]
    · cases there : properties[first]? with
      | none => simp [record, there, same]
      | some declared =>
        have apart : property.name ≠ declared.name := by
          intro equal
          have inside : index < (Property.names properties).length := by
            simpa [Property.names] using (List.getElem?_eq_some_iff.mp listed).1
          exact same ((List.getElem?_inj inside names).mp (by
            simp [Property.names, listed, there, equal]))
        simp [record, there, same, Fields.get?_insert_of_ne _ _ apart]

/-- The check of properties goes by what each comes to. -/
theorem checkProperties_cons (index : Nat) (rest : List Nat) (answers : Fields Value) :
    checkProperties check wire properties fields (index :: rest) answers =
      match outcomeAt check wire properties fields index with
      | .error stop => .error stop
      | .ok (.error violations) => .ok (.error violations)
      | .ok (.ok found) =>
        checkProperties check wire properties fields rest
          (record properties answers index found) := by
  rw [checkProperties, outcomeAt]
  cases there : properties[index]? with
  | none => rfl
  | some property =>
    have same : (Fields.get? (readKey wire property) fields).getD .undefined =
        fields.lookup (readKey wire property) := rfl
    simp only [checkProperty, same]
    split
    · cases property.required <;> rfl
    · rcases check index property.body _ with stop | (answer | violations)
      · rfl
      · simp [record, there]
      · rfl

/-- In every order either all properties pass, or one is the first that does not. -/
theorem all_pass_or_first (outcome : Nat → Attempts (Option Value)) (order : List Nat) :
    (∀ index ∈ order, ∃ found, outcome index = .ok (.ok found)) ∨
      ∃ before index after, order = before ++ index :: after ∧
        (∀ earlier ∈ before, ∃ found, outcome earlier = .ok (.ok found)) ∧
        ¬ ∃ found, outcome index = .ok (.ok found) := by
  classical
  cases first : order.find? (fun index => ¬ ∃ found, outcome index = .ok (.ok found)) with
  | none => exact .inl (fun index member => by simpa using List.find?_eq_none.mp first index member)
  | some index =>
    obtain ⟨fails, before, after, split, passed⟩ := List.find?_eq_some_iff_append.mp first
    exact .inr ⟨before, index, after, split,
      fun earlier member => by simpa using passed earlier member,
      by simpa using fails⟩

/-- The first property that does not pass ends the check. -/
theorem checkProperties_first {before : List Nat} {index : Nat}
    (passed : ∀ earlier ∈ before, ∃ found,
      outcomeAt check wire properties fields earlier = .ok (.ok found))
    (fails : ¬ ∃ found, outcomeAt check wire properties fields index = .ok (.ok found))
    (after : List Nat) (answers : Fields Value) :
    (∃ stop, outcomeAt check wire properties fields index = .error stop ∧
        checkProperties check wire properties fields (before ++ index :: after) answers =
          .error stop) ∨
      ∃ violations, outcomeAt check wire properties fields index = .ok (.error violations) ∧
        checkProperties check wire properties fields (before ++ index :: after) answers =
          .ok (.error violations) := by
  induction before generalizing answers with
  | nil =>
    rw [List.nil_append, checkProperties_cons]
    match found : outcomeAt check wire properties fields index with
    | .error stop => exact .inl ⟨stop, rfl, rfl⟩
    | .ok (.error violations) => exact .inr ⟨violations, rfl, rfl⟩
    | .ok (.ok answer) => exact absurd ⟨answer, found⟩ fails
  | cons earlier rest ih =>
    obtain ⟨answer, found⟩ := passed earlier (.head _)
    rw [List.cons_append, checkProperties_cons, found]
    exact ih (fun other member => passed other (.tail _ member)) _

/-- When all properties pass, each has its answer. -/
theorem checkProperties_passed (names : (Property.names properties).Nodup)
    {found : Nat → Option Value} {order : List Nat}
    (passed : ∀ index ∈ order,
      outcomeAt check wire properties fields index = .ok (.ok (found index)))
    (answers : Fields Value) :
    ∃ final, checkProperties check wire properties fields order answers = .ok (.ok final) ∧
      ∀ index property, properties[index]? = some property → final.get? property.name =
        (if index ∈ order then found index else none).or (answers.get? property.name) := by
  induction order generalizing answers with
  | nil => exact ⟨answers, rfl, fun _ _ _ => by simp⟩
  | cons first rest ih =>
    obtain ⟨own, others⟩ := List.forall_mem_cons.mp passed
    rw [checkProperties_cons, own]
    obtain ⟨final, ended, answered⟩ := ih others (record properties answers first (found first))
    refine ⟨final, ended, fun index property listed => ?_⟩
    rw [answered index property listed, get?_record names answers first _ listed,
      ← Option.or_assoc]
    congr 1
    by_cases same : index = first
    · subst same
      by_cases later : index ∈ rest <;> simp [later]
    · simp [same]

/-- Where every property passes, the order says nothing about the check of the object. -/
theorem checkObject_of_passed (names : (Property.names properties).Nodup)
    {additional : Additional Validator} {tag : Schema} {options : Options} {place : Identity}
    {content : Identity} {tags : Tags} {order order' : List Nat}
    (all : ∀ index, index ∈ order ↔ index < properties.length)
    (all' : ∀ index, index ∈ order' ↔ index < properties.length)
    (passed : ∀ index < properties.length, ∃ found,
      outcomeAt check (options.convertFromNetwork && !tags.has tag) properties fields index =
        .ok (.ok found)) :
    checkObject check checkExtra properties order additional tag options place
        (.object content fields tags) =
      checkObject check checkExtra properties order' additional tag options place
        (.object content fields tags) := by
  choose! found passed using passed
  obtain ⟨final, ended, answered⟩ := checkProperties_passed names
    (fun index member => passed index ((all index).mp member)) []
  obtain ⟨final', ended', answered'⟩ := checkProperties_passed names
    (fun index member => passed index ((all' index).mp member)) []
  have same : declaredFields properties final = declaredFields properties final' := by
    refine List.filterMap_congr (fun property member => ?_)
    obtain ⟨index, listed⟩ := List.getElem?_of_mem member
    have inside := (List.getElem?_eq_some_iff.mp listed).1
    rw [answered index property listed, answered' index property listed,
      if_pos ((all index).mpr inside), if_pos ((all' index).mpr inside)]
  have skipped : isDeclaredKey (options.convertFromNetwork && !tags.has tag) properties order =
      isDeclaredKey (options.convertFromNetwork && !tags.has tag) properties order' :=
    funext fun key => by rw [isDeclaredKey_eq_isTaken all, isDeclaredKey_eq_isTaken all']
  simp only [checkObject, ended, ended', same, skipped]

/-- How an object fares by the first property in the order that does not pass. -/
inductive Blames (outcome : Nat → Attempts (Option Value)) (order : List Nat) : Attempt → Prop
  | stopped {before after : List Nat} {index : Nat} {stop : Stop}
      (split : order = before ++ index :: after)
      (passed : ∀ earlier ∈ before, ∃ found, outcome earlier = .ok (.ok found))
      (fails : outcome index = .error stop) : Blames outcome order (.error stop)
  | refused {before after : List Nat} {index : Nat} {violations : List Violation}
      (split : order = before ++ index :: after)
      (passed : ∀ earlier ∈ before, ∃ found, outcome earlier = .ok (.ok found))
      (fails : outcome index = .ok (.error violations)) :
      Blames outcome order (.ok (.rejected violations))

/-- Where some property does not pass, the first such in the order is blamed. -/
theorem checkObject_blames {additional : Additional Validator} {tag : Schema} {options : Options}
    {place : Identity} {content : Identity} {tags : Tags} {order : List Nat}
    (all : ∀ index, index ∈ order ↔ index < properties.length)
    (permitted : ∀ entry ∈ fields, entry.1 ∉ forbiddenKeys)
    (fails : ¬ ∀ index < properties.length, ∃ found,
      outcomeAt check (options.convertFromNetwork && !tags.has tag) properties fields index =
        .ok (.ok found)) :
    Blames (outcomeAt check (options.convertFromNetwork && !tags.has tag) properties fields) order
      (checkObject check checkExtra properties order additional tag options place
        (.object content fields tags)) := by
  have none : fields.find? (fun entry => forbiddenKeys.contains entry.1) = none :=
    List.find?_eq_none.mpr (fun entry member => by simpa using permitted entry member)
  rcases all_pass_or_first
    (outcomeAt check (options.convertFromNetwork && !tags.has tag) properties fields) order with
    pass | ⟨before, index, after, split, passed, first⟩
  · exact absurd (fun index inside => pass index ((all index).mpr inside)) fails
  · have checked := checkProperties_first passed first after []
    rw [← split] at checked
    rcases checked with ⟨stop, outcome, ended⟩ | ⟨violations, outcome, ended⟩
    · have result : checkObject check checkExtra properties order additional tag options place
          (.object content fields tags) = .error stop := by
        simp only [checkObject, none, ended]
      exact result ▸ .stopped split passed outcome
    · have result : checkObject check checkExtra properties order additional tag options place
          (.object content fields tags) = .ok (.rejected violations) := by
        simp only [checkObject, none, ended]
      exact result ▸ .refused split passed outcome

/-- Two orders have the same result, or each blames a property. -/
theorem checkObject_eq_or_blames (names : (Property.names properties).Nodup)
    {order order' : List Nat} (all : ∀ index, index ∈ order ↔ index < properties.length)
    (all' : ∀ index, index ∈ order' ↔ index < properties.length)
    (additional : Additional Validator) (tag : Schema) (options : Options) (place : Identity)
    (value : Value) :
    checkObject check checkExtra properties order additional tag options place value =
        checkObject check checkExtra properties order' additional tag options place value ∨
      ∃ content fields tags, value = .object content fields tags ∧
        Blames (outcomeAt check (options.convertFromNetwork && !tags.has tag) properties fields)
          order (checkObject check checkExtra properties order additional tag options place value) ∧
        Blames (outcomeAt check (options.convertFromNetwork && !tags.has tag) properties fields)
          order'
          (checkObject check checkExtra properties order' additional tag options place value) := by
  cases value with
  | object content fields tags =>
    cases forbidden : fields.find? (fun entry => forbiddenKeys.contains entry.1) with
    | some entry => exact .inl (by simp only [checkObject, forbidden])
    | none =>
      have permitted : ∀ entry ∈ fields, entry.1 ∉ forbiddenKeys := fun entry member => by
        simpa using List.find?_eq_none.mp forbidden entry member
      by_cases passed : ∀ index < properties.length, ∃ found, outcomeAt check
        (options.convertFromNetwork && !tags.has tag) properties fields index = .ok (.ok found)
      · exact .inl (checkObject_of_passed names all all' passed)
      · exact .inr ⟨content, fields, tags, rfl, checkObject_blames all permitted passed,
          checkObject_blames all' permitted passed⟩
  | _ => exact .inl rfl

end

/-! ## Comparison orders -/

section

variable (surroundings : Surroundings) (definitions : Definitions)
  (properties : List (Property Schema)) (additional : Additional Schema) (tag : Schema)
  (options : Options) (place : Identity)

/-- What the declared property at an index comes to when an object with the fields and tags is
run. -/
def declaredOutcome (fuel : Nat) (fields : Fields Value) (tags : Tags) :
    Nat → Attempts (Option Value) :=
  outcomeAt (fun index body item =>
      run surroundings fuel (body.validator definitions) options ((place.part 0).part index) item)
    (options.convertFromNetwork && !tags.has tag) properties fields

/-- The outcomes of a compiled object type are those of its schemas. -/
theorem declaredOutcome_eq (fuel : Nat) (fields : Fields Value) (tags : Tags) :
    declaredOutcome surroundings definitions properties tag options place fuel fields tags =
      outcomeAt
        (fun index inner item =>
          run surroundings fuel inner options ((place.part 0).part index) item)
        (options.convertFromNetwork && !tags.has tag)
        (properties.map (Property.mapBody (Schema.validator definitions))) fields :=
  funext fun index => (outcomeAt_map
    (fun index inner item => run surroundings fuel inner options ((place.part 0).part index) item)
    (Schema.validator definitions) _ properties fields index).symm

/-- The run of an object is its check, which goes by what its properties come to. -/
theorem run_ofObject (names : List String) (fuel : Nat) (value : Value) :
    run surroundings (fuel + 1) (.ofObject definitions properties additional names tag) options
        place value =
      checkObject
        (fun index inner item =>
          run surroundings fuel inner options ((place.part 0).part index) item)
        (fun index inner item =>
          run surroundings fuel inner options ((place.part 1).part index) item)
        (properties.map (Property.mapBody (Schema.validator definitions)))
        (Property.checkOrder definitions properties names)
        (additional.mapBody (Schema.validator definitions)) tag options place value := by
  rw [← Schema.propertyValidators_eq_map, ← Schema.additionalValidator_eq_map]
  rfl

/-- The order of the checks lists every property of a compiled object type. -/
theorem mem_checkOrder_map (names : List String) (index : Nat) :
    index ∈ Property.checkOrder definitions properties names ↔
      index < (properties.map (Property.mapBody (Schema.validator definitions))).length := by
  rw [Property.mem_checkOrder, List.length_map]

variable {surroundings definitions properties tag options place} in
/-- Where a declared property does not pass, the run blames the first such in its order. -/
theorem run_ofObject_blames {fuel : Nat} {fields : Fields Value} {tags : Tags}
    (permitted : ∀ entry ∈ fields, entry.1 ∉ forbiddenKeys)
    (fails : ¬ ∀ index < properties.length, ∃ found,
      declaredOutcome surroundings definitions properties tag options place fuel fields tags index =
        .ok (.ok found)) (names : List String) (content : Identity) :
    Blames (declaredOutcome surroundings definitions properties tag options place fuel fields tags)
      (Property.checkOrder definitions properties names)
      (run surroundings (fuel + 1) (.ofObject definitions properties additional names tag) options
        place (.object content fields tags)) := by
  rw [declaredOutcome_eq] at fails ⊢
  rw [run_ofObject]
  exact checkObject_blames (mem_checkOrder_map definitions properties names) permitted
    (by rwa [List.length_map])

/-- Two runs of an object type with names to check first have the same result, or each blames a
property. -/
theorem run_ofObject_eq_or_blames (distinct : (Property.names properties).Nodup)
    (names names' : List String) (fuel : Nat) (value : Value) :
    run surroundings (fuel + 1) (.ofObject definitions properties additional names tag) options
        place value =
      run surroundings (fuel + 1) (.ofObject definitions properties additional names' tag) options
        place value ∨
    ∃ content fields tags, value = .object content fields tags ∧
      Blames
        (declaredOutcome surroundings definitions properties tag options place fuel fields tags)
        (Property.checkOrder definitions properties names)
        (run surroundings (fuel + 1) (.ofObject definitions properties additional names tag) options
          place value) ∧
      Blames
        (declaredOutcome surroundings definitions properties tag options place fuel fields tags)
        (Property.checkOrder definitions properties names')
        (run surroundings (fuel + 1) (.ofObject definitions properties additional names' tag)
          options place value) := by
  have distinct' :
      (Property.names
        (properties.map (Property.mapBody (Schema.validator definitions)))).Nodup := by
    simpa [Property.names, Function.comp_def, Property.mapBody] using distinct
  simp only [run_ofObject, declaredOutcome_eq]
  exact checkObject_eq_or_blames distinct' (mem_checkOrder_map definitions properties names)
    (mem_checkOrder_map definitions properties names') _ tag options place value

variable {properties} in
/-- A run that accepts does so whatever is checked first, and with the same answer. -/
theorem run_ofObject_accepted (distinct : (Property.names properties).Nodup)
    {names : List String} {fuel : Nat} {value answer : Value}
    (accepted : run surroundings fuel (.ofObject definitions properties additional names tag)
      options place value = .ok (.accepted answer)) (names' : List String) :
    run surroundings fuel (.ofObject definitions properties additional names' tag) options place
      value = .ok (.accepted answer) := by
  cases fuel with
  | zero => cases accepted
  | succ fuel =>
    rcases run_ofObject_eq_or_blames surroundings definitions properties additional tag options
      place distinct names names' fuel value with same | ⟨_, _, _, _, blames, _⟩
    · exact same ▸ accepted
    · rw [accepted] at blames
      cases blames

variable {properties} in
/-- Two runs that return both accept, with one answer, or both refuse. -/
theorem run_ofObject_agree (distinct : (Property.names properties).Nodup)
    {names names' : List String} {fuel fuel' : Nat} {value : Value} {verdict verdict' : Verdict}
    (ended : run surroundings fuel (.ofObject definitions properties additional names tag) options
      place value = .ok verdict)
    (ended' : run surroundings fuel' (.ofObject definitions properties additional names' tag)
      options place value = .ok verdict') :
    (∃ answer, verdict = .accepted answer ∧ verdict' = .accepted answer) ∨
      ∃ violations violations', verdict = .rejected violations ∧
        verdict' = .rejected violations' := by
  have kept := @run_ofObject_accepted surroundings definitions properties additional tag options
    place distinct
  have deep := run_mono (Nat.le_max_left fuel fuel') ended
  have deep' := run_mono (Nat.le_max_right fuel fuel') ended'
  cases verdict with
  | accepted answer =>
    have same := (kept deep names').symm.trans deep'
    exact .inl ⟨answer, rfl, (Except.ok.inj same).symm⟩
  | rejected violations =>
    cases verdict' with
    | accepted answer => cases deep.symm.trans (kept deep' names)
    | rejected violations' => exact .inr ⟨violations, violations', rfl, rfl⟩

end

/-- An order of checks by index: the properties with the names, as they are named, then the others
class by class and in a class as declared. -/
structure Arranged (definitions : Definitions) (properties : List (Property Schema))
    (names : List String) (order : List Nat) : Prop where
  /-- Every declared property is checked, and nothing else. -/
  covers : ∀ index, index ∈ order ↔ index < properties.length
  /-- The named properties come first. -/
  listed : ∃ others,
    order = names.filterMap (fun name =>
      properties.findIdx? (fun property => property.name = name)) ++ others ∧
    (∀ index, index ∈ others ↔ index < properties.length ∧ index ∉ names.filterMap (fun name =>
      properties.findIdx? (fun property => property.name = name))) ∧
    others.Pairwise (fun index index' =>
      Property.classAt definitions properties index <
          Property.classAt definitions properties index' ∨
        Property.classAt definitions properties index =
            Property.classAt definitions properties index' ∧ index < index')

/-- The order of checks is arranged by the names and the classes. -/
theorem checkOrder_arranged (definitions : Definitions) (properties : List (Property Schema))
    (names : List String) :
    Arranged definitions properties names (Property.checkOrder definitions properties names) := by
  refine ⟨Property.mem_checkOrder definitions properties names, _, rfl, fun index => ?_, ?_⟩
  · simp only [List.mem_flatMap, List.mem_filter, List.mem_range, List.contains_eq_mem,
      Bool.not_eq_true', decide_eq_false_iff_not, beq_iff_eq]
    constructor
    · rintro ⟨_, _, rest, _⟩
      exact rest
    · rintro ⟨inside, unlisted⟩
      refine ⟨_, ?_, ⟨inside, unlisted⟩, rfl⟩
      have small := Property.checkClass_lt definitions properties[index]
      simpa [Property.classAt, List.getElem?_eq_getElem inside] using small
  · rw [List.pairwise_flatMap]
    constructor
    · intro rank _
      have sorted := ((List.pairwise_lt_range (n := properties.length)).filter
        (fun index => !(Property.listed properties names).contains index)).filter
        (fun index => Property.classAt definitions properties index == rank)
      refine sorted.imp_of_mem (fun first second less => .inr ⟨?_, less⟩)
      simp only [List.mem_filter, beq_iff_eq] at first second
      rw [first.2, second.2]
    · refine List.pairwise_lt_range.imp (fun less index member index' member' => .inl ?_)
      simp only [List.mem_filter, beq_iff_eq] at member member'
      rw [member.2, member'.2]
      exact less

/-- **The comparison order only decides which violation is found.** Whatever names are checked
first, the order has every declared property. A run that accepts does so in every order, with one
answer, and two runs that return both accept or both refuse. Where a declared property does not
pass, the run has the result of the first in its order that does not: it is refused with the
violations of that property, or it has no verdict as that property has none. -/
theorem comparison_order_decides_blame {surroundings : Surroundings} {definitions : Definitions}
    {properties : List (Property Schema)} {additional : Additional Schema} {tag : Schema}
    {options : Options} {place : Identity} (distinct : (Property.names properties).Nodup) :
    let judged (names : List String) (fuel : Nat) (value : Value) : Attempt :=
      run surroundings fuel (.ofObject definitions properties additional names tag) options place
        value
    let outcome (fuel : Nat) (fields : Fields Value) (tags : Tags) :=
      declaredOutcome surroundings definitions properties tag options place fuel fields tags
    (∀ names, Arranged definitions properties names
      (Property.checkOrder definitions properties names)) ∧
    (∀ names names' fuel value answer, judged names fuel value = .ok (.accepted answer) →
      judged names' fuel value = .ok (.accepted answer)) ∧
    (∀ names names' fuel fuel' value verdict verdict', judged names fuel value = .ok verdict →
      judged names' fuel' value = .ok verdict' →
      (∃ answer, verdict = .accepted answer ∧ verdict' = .accepted answer) ∨
        ∃ violations violations', verdict = .rejected violations ∧
          verdict' = .rejected violations') ∧
    ∀ names fuel content fields tags, (∀ entry ∈ fields, entry.1 ∉ forbiddenKeys) →
      (∀ index < properties.length, ∃ found, outcome fuel fields tags index = .ok (.ok found)) ∨
        Blames (outcome fuel fields tags) (Property.checkOrder definitions properties names)
          (judged names (fuel + 1) (.object content fields tags)) := by
  intro judged outcome
  refine ⟨checkOrder_arranged definitions properties,
    fun names names' fuel value answer accepted =>
      run_ofObject_accepted surroundings definitions additional tag options place distinct accepted
        names',
    fun names names' fuel fuel' value verdict verdict' ended ended' =>
      run_ofObject_agree surroundings definitions additional tag options place distinct ended
        ended',
    fun names fuel content fields tags permitted => ?_⟩
  by_cases passed : ∀ index < properties.length, ∃ found,
    outcome fuel fields tags index = .ok (.ok found)
  · exact .inl passed
  · exact .inr (run_ofObject_blames additional permitted passed names content)

/-! ## Two orders of one check -/

namespace Cards

/-- A label, and a kind of two, of which the kind is checked first unless asked otherwise. -/
def properties : List (Property Schema) :=
  [⟨"label", true, none, .string 1 {}⟩,
    ⟨"kind", true, none, .string 2 { allowed := [.string "plain", .string "rich"] }⟩]

/-- The names are listed with one that is unknown and one that is repeated. -/
def names : List String :=
  ["label", "colour", "label"]

/-- A run of the object type that checks the listed names first. -/
def judged (names : List String) (fields : Fields Value) : Attempt :=
  run (.ofDefinitions (fun _ => .unknown) (fun _ => none)) 3
    (.ofObject (fun _ => .unknown) properties .deny names (.object 0 properties .deny)) .strict
    (.run 1) (.object (.run 0) fields [])

/-- A card with two faults is refused for the one that is found first, and a proper one is
answered alike. -/
theorem cards_blamed_in_order :
    (Property.names properties).Nodup ∧
      (∃ violations, judged [] [("label", .null), ("kind", .null)] = .ok (.rejected violations) ∧
        violations.map Violation.path = [["kind"]]) ∧
      (∃ violations, judged names [("label", .null), ("kind", .null)] = .ok (.rejected violations) ∧
        violations.map Violation.path = [["label"]]) ∧
      ∃ answer, judged [] [("kind", .string "rich"), ("label", .string "a")] =
          .ok (.accepted answer) ∧
        judged names [("kind", .string "rich"), ("label", .string "a")] =
          .ok (.accepted answer) := by
  have distinct : (Property.names properties).Nodup := by decide
  have accepted : judged [] [("kind", .string "rich"), ("label", .string "a")] =
      .ok (.accepted (.object (.run 1) [("label", .string "a"), ("kind", .string "rich")]
        [.object 0 properties .deny])) := by
    with_unfolding_all rfl
  refine ⟨distinct, ⟨_, by with_unfolding_all rfl, rfl⟩, ⟨_, by with_unfolding_all rfl, rfl⟩,
    _, accepted, ?_⟩
  exact (comparison_order_decides_blame distinct).2.1 [] names 3 _ _ accepted

end Cards

end Validator

/-! ## An order that finds the fault and one that never returns -/

namespace Nest

/-- A nest and a number. -/
def counted : List (Property Schema) :=
  [⟨"nest", true, none, nest⟩, ⟨"count", true, none, .number 12 {}⟩]

/-- A run on an object whose nest is a string, and whose number is one too. -/
def miscounted (names : List String) (fuel : Nat) : Attempt :=
  Validator.run context.surroundings fuel
    (.ofObject definitions counted .keep names (.object 13 counted .keep)) context.settings (.run 1)
    (.object (.run 0) [("nest", .string "x"), ("count", .string "no")] [])

/-- The object is refused where the number is checked first. Where the nest is, the run never
returns. -/
theorem refused_or_hangs_by_order :
    (Property.names counted).Nodup ∧
      (∃ violations, miscounted ["count"] 5 = .ok (.rejected violations)) ∧
      ∀ fuel, miscounted ["nest"] fuel = .error .exhausted := by
  refine ⟨by decide, ⟨_, rfl⟩, fun fuel => ?_⟩
  rcases fuel with _ | less
  · rfl
  have order : Property.checkOrder definitions counted ["nest"] = [0, 1] := by decide +kernel
  rw [miscounted, Validator.run_ofObject, order]
  exact Validator.checkObject_stopped (by decide) rfl rfl (attempt_exhausted rfl _ _)

end Nest

end Conform
