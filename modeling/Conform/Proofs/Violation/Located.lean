import Conform.Proofs.Discriminator.Dispatch
import Conform.Proofs.Revalidation.Trimmed

/-!
# Where violations are

The path of a violation leads through the value that was refused: every segment names an item
of an array or a field of an object that is there, but for the last, which may also name a field
that is missing. The causes of a group are found from where the group is.

Paths are put together from the inside out, and a component of an intersection refuses what the
components before it made of the value. What they made of it has lost fields without a value at
most, so a path through it is a path through the value.
-/

namespace Conform

namespace Value

/-- The path leads through the value to a part of it. -/
inductive Leads : Value → List String → Value → Prop
  | here (value : Value) : Leads value [] value
  | item {content : Identity} {items : List Value} {tags : Tags} {index : Nat} {item part : Value}
      {path : List String} (there : items[index]? = some item) (further : Leads item path part) :
      Leads (.array content items tags) (Violation.indexSegment index :: path) part
  | field {content : Identity} {fields : Fields Value} {tags : Tags} {key : String}
      {item part : Value} {path : List String} (there : fields.get? key = some item)
      (further : Leads item path part) : Leads (.object content fields tags) (key :: path) part

/-- A path through what is left of a value is a path through the value. -/
theorem Leads.of_trimmed {value answer part : Value} {path : List String}
    (leads : answer.Leads path part) (trimmed : value.Trimmed answer) :
    ∃ source, value.Leads path source ∧ source.Trimmed part := by
  induction leads generalizing value with
  | here answer => exact ⟨value, .here value, trimmed⟩
  | @item _ items' _ index item part path there further ih =>
    cases trimmed with
    | @array _ _ items _ _ _ lengths each =>
      obtain ⟨inside', rfl⟩ := List.getElem?_eq_some_iff.mp there
      have inside : index < items.length := by omega
      obtain ⟨source, leads, trimmed⟩ := ih (each index inside inside')
      exact ⟨source, .item (List.getElem?_eq_getElem inside) leads, trimmed⟩
  | @field _ fields' _ key item part path there further ih =>
    cases trimmed with
    | @object _ _ fields _ _ _ distinct known kept each =>
      have member : key ∈ fields'.keys := Fields.mem_keys (Fields.mem_of_get? there)
      obtain ⟨origin, there'⟩ := Fields.exists_get?_of_mem_keys (known key member)
      have related := each key member
      rw [Fields.lookup, Fields.lookup, there, there'] at related
      obtain ⟨source, leads, trimmed⟩ := ih related
      exact ⟨source, .field there' leads, trimmed⟩

end Value

namespace Violation

/-- The violation, and every one behind it, is at a part of the value, or at a field that an object
in it does not have. -/
inductive Located : Value → Violation → Prop
  | part {value part : Value} {path : List String} (leads : value.Leads path part)
      (reason : Reason) : Located value (.single path reason)
  | missing {value : Value} {content : Identity} {fields : Fields Value} {tags : Tags}
      {path : List String} {key : String} (leads : value.Leads path (.object content fields tags))
      (absent : (fields.lookup key).isUndefined = true) (reason : Reason) :
      Located value (.single (path ++ [key]) reason)
  | group {value part : Value} {path : List String} {causes : List Violation}
      (leads : value.Leads path part) (reason : Reason)
      (each : ∀ cause ∈ causes, Located part cause) : Located value (.group path reason causes)

namespace Located

variable {value answer : Value} {violation : Violation}

/-- What is located in what is left of a value is located in the value. -/
theorem of_trimmed (located : Located answer violation) (trimmed : value.Trimmed answer) :
    Located value violation := by
  induction located generalizing value with
  | part leads reason =>
    obtain ⟨source, leads, _⟩ := leads.of_trimmed trimmed
    exact .part leads reason
  | @missing _ _ fields' _ path key leads absent reason =>
    obtain ⟨source, leads, trimmed⟩ := leads.of_trimmed trimmed
    cases trimmed with
    | @object _ _ fields _ _ _ distinct known kept each =>
      refine .missing leads ?_ reason
      -- a field with a value would be left, with a value
      by_contra there
      rw [Bool.not_eq_true] at there
      have related := each key (kept key there)
      rw [related.isUndefined_eq, absent] at there
      cases there
  | group leads reason each ih =>
    obtain ⟨source, leads, trimmed⟩ := leads.of_trimmed trimmed
    exact .group leads reason (fun cause member => ih cause member trimmed)

/-- Seen from the array, a violation in an item is in the array. -/
theorem under_item {content : Identity} {items : List Value} {tags : Tags} {index : Nat}
    {item : Value} (there : items[index]? = some item) (located : Located item violation) :
    Located (.array content items tags) (violation.under (indexSegment index)) := by
  cases located with
  | part leads reason => exact .part (.item there leads) reason
  | missing leads absent reason => exact .missing (.item there leads) absent reason
  | group leads reason each => exact .group (.item there leads) reason each

/-- Seen from the object, a violation in a field is in the object. -/
theorem under_field {content : Identity} {fields : Fields Value} {tags : Tags} {key : String}
    {item : Value} (there : fields.get? key = some item) (located : Located item violation) :
    Located (.object content fields tags) (violation.under key) := by
  cases located with
  | part leads reason => exact .part (.field there leads) reason
  | missing leads absent reason => exact .missing (.field there leads) absent reason
  | group leads reason each => exact .group (.field there leads) reason each

/-- A violation at a field of an object is located whether or not the field is there. -/
theorem at_key (content : Identity) (fields : Fields Value) (tags : Tags) (key : String)
    (reason : Reason) : Located (.object content fields tags) (.single [key] reason) := by
  cases found : fields.get? key with
  | some item => exact .part (.field found (.here item)) reason
  | none =>
    have absent : (fields.lookup key).isUndefined = true := by
      rw [Fields.lookup, found]
      rfl
    exact .missing (.here _) absent reason

end Located

end Violation

namespace Verdict

/-- Where the verdict refuses the value, it does so by one violation that is located in it. -/
def Locates (verdict : Verdict) (value : Value) : Prop :=
  ∀ violations, verdict = .rejected violations →
    ∃ violation, violations = [violation] ∧ violation.Located value

variable {value answer : Value} {verdict : Verdict} {causes : List Violation}

/-- What accepts has nothing to locate. -/
theorem locates_accepted (answer value : Value) : (Verdict.accepted answer).Locates value :=
  nofun

/-- One violation that is located is located as a refusal. -/
theorem locates_of_located {violation : Violation} (located : violation.Located value) :
    (Verdict.rejected [violation]).Locates value := by
  rintro _ ⟨⟩
  exact ⟨violation, rfl, located⟩

/-- A refusal of the whole value is located at the value. -/
theorem locates_refuse (reason : Reason) (value : Value) :
    (Verdict.refuse reason).Locates value :=
  locates_of_located (.part (.here value) reason)

/-- A verdict by a reason is located at the value. -/
theorem locates_unless (reason? : Option Reason) (answer value : Value) :
    (Verdict.unless reason? answer).Locates value := by
  cases reason? with
  | none => exact locates_accepted answer value
  | some reason => exact locates_refuse reason value

namespace Locates

/-- What is located in a trimmed value is located in the value. -/
theorem of_trimmed (locates : verdict.Locates answer) (trimmed : value.Trimmed answer) :
    verdict.Locates value := by
  intro violations refused
  obtain ⟨violation, same, located⟩ := locates violations refused
  exact ⟨violation, same, located.of_trimmed trimmed⟩

/-- A group at the value has the violations that a verdict on the value has. -/
theorem located_group (locates : (Verdict.rejected causes).Locates value) (reason : Reason) :
    (Violation.group [] reason causes).Located value := by
  obtain ⟨violation, rfl, located⟩ := locates causes rfl
  apply Violation.Located.group (.here value) reason
  intro cause member
  rw [List.mem_singleton.mp member]
  exact located

/-- What is located in an item is located in the array, under the index. -/
theorem under_item {content : Identity} {items : List Value} {tags : Tags} {index : Nat}
    {item : Value} (locates : (Verdict.rejected causes).Locates item)
    (there : items[index]? = some item) :
    (Verdict.rejected (causes.map (Violation.under (Violation.indexSegment index)))).Locates
      (.array content items tags) := by
  obtain ⟨violation, rfl, located⟩ := locates causes rfl
  exact locates_of_located (located.under_item there)

/-- What is located in a field is located in the object, under the key. -/
theorem under_field {content : Identity} {fields : Fields Value} {tags : Tags} {key : String}
    {item : Value} (locates : (Verdict.rejected causes).Locates item)
    (there : fields.get? key = some item) :
    (Verdict.rejected (causes.map (Violation.under key))).Locates
      (.object content fields tags) := by
  obtain ⟨violation, rfl, located⟩ := locates causes rfl
  exact locates_of_located (located.under_field there)

end Locates

end Verdict

/-! ## Leaves -/

/-- Boolean checks locate their violations. -/
theorem checkBoolean_locates (rules : BooleanRules) (options : Options) (value : Value) :
    (checkBoolean rules options value).Locates value := by
  unfold checkBoolean
  split
  · exact Verdict.locates_unless _ _ value
  · exact Verdict.locates_refuse _ value

/-- Number checks locate their violations. -/
theorem checkNumber_locates (whole : Bool) (rules : NumberRules) (options : Options)
    (value : Value) : (checkNumber whole rules options value).Locates value := by
  unfold checkNumber
  split
  · exact Verdict.locates_refuse _ value
  · split
    · exact Verdict.locates_refuse _ value
    · split
      · exact Verdict.locates_refuse _ value
      · exact Verdict.locates_unless _ _ value

/-- Strings are refused at the string, when formats do so. -/
theorem checkString_locates {format : String → Option Validator} {check : Validator → Attempt}
    {rules : StringRules} {value : Value} {verdict : Verdict}
    (formats : ∀ name inner result, rules.format = some name → format name = some inner →
      check inner = .ok result → result.Locates value)
    (ended : Validator.checkString format check rules value = .ok verdict) :
    verdict.Locates value := by
  cases value with
  | string text =>
    simp only [Validator.checkString] at ended
    split at ended
    · obtain rfl := Except.ok.inj ended
      exact Verdict.locates_refuse _ _
    · split at ended
      · obtain rfl := Except.ok.inj ended
        exact Verdict.locates_unless _ _ _
      · next name named =>
        split at ended
        · obtain rfl := Except.ok.inj ended
          exact Verdict.locates_refuse _ _
        · next inner found =>
          split at ended
          · cases ended
          · next violations refused =>
            obtain rfl := Except.ok.inj ended
            have inside := formats name inner _ named found refused
            exact Verdict.locates_of_located (inside.located_group _)
          · obtain rfl := Except.ok.inj ended
            exact Verdict.locates_unless _ _ _
  | _ =>
    obtain rfl := Except.ok.inj ended
    exact Verdict.locates_refuse _ _

namespace Context

variable {context : Context} {schema : Schema} {value : Value} {verdict : Verdict}

/-- A leaf refuses a value at the value itself. -/
theorem leaf_locates (leaf : schema.isLeaf = true) (known : schema.KnownFormats context.format)
    (judged : context.Judges schema value verdict) : verdict.Locates value := by
  have ended := leaf_settled leaf known judged 0 (.run 0)
  cases schema with
  | string node rules =>
    apply checkString_locates _ ended
    intro name inner result named found checked
    obtain ⟨inner', listed, found'⟩ := known name named
    cases found.symm.trans found'
    obtain ⟨form, accepts, rfl⟩ := Formats.builtin_textForm listed
    obtain rfl := Except.ok.inj checked
    cases value with
    | string text =>
      cases accepted : accepts text with
      | true =>
        simp only [accepted, if_true]
        exact Verdict.locates_accepted _ _
      | false =>
        simp only [accepted, Bool.false_eq_true, if_false]
        exact Verdict.locates_refuse _ _
    | _ => exact Verdict.locates_refuse _ _
  | void =>
    cases value <;> obtain rfl := Except.ok.inj ended
    all_goals first | exact Verdict.locates_accepted _ _ | exact Verdict.locates_refuse _ _
  | null =>
    cases value <;> obtain rfl := Except.ok.inj ended
    all_goals first | exact Verdict.locates_accepted _ _ | exact Verdict.locates_refuse _ _
  | unknown =>
    obtain rfl := Except.ok.inj ended
    exact Verdict.locates_accepted _ _
  | boolean node rules =>
    obtain rfl := Except.ok.inj ended
    exact checkBoolean_locates _ _ _
  | integer node rules =>
    obtain rfl := Except.ok.inj ended
    exact checkNumber_locates _ _ _ _
  | number node rules =>
    obtain rfl := Except.ok.inj ended
    exact checkNumber_locates _ _ _ _
  | _ => cases leaf

end Context

/-! ## Whole schemas -/

namespace Validator

variable {judges : Schema → Value → Verdict → Prop}

/-- An object is refused at one of its keys, or in what it has there. -/
theorem FieldsRefused.locates {drop : Bool} {properties : List (Property Schema)}
    {additional : Additional Schema} {content : Identity} {fields : Fields Value} {tags : Tags}
    {violations : List Violation} (distinct : Fields.Distinct fields)
    (parts : ∀ body key item causes, (key, item) ∈ fields →
      judges body item (.rejected causes) → (Verdict.rejected causes).Locates item)
    (refused : FieldsRefused judges false drop properties additional fields violations) :
    (Verdict.rejected violations).Locates (.object content fields tags) := by
  cases refused with
  | forbidden member forbidden => exact Verdict.locates_of_located (.at_key ..)
  | missing member absent required => exact Verdict.locates_of_located (.at_key ..)
  | property member present judged =>
    rw [readKey_false] at present judged
    have held := Fields.mem_of_lookup present
    exact (parts _ _ _ _ held judged).under_field (Fields.get?_of_mem distinct held)
  | others refused =>
    cases refused with
    | unexpected closed kept member => exact Verdict.locates_of_located (.at_key ..)
    | judged typed member judged =>
      have held := (mem_otherFields.mp member).1
      exact (parts _ _ _ _ held judged).under_field (Fields.get?_of_mem distinct held)

end Validator

namespace Context

variable {context : Context} {schema : Schema} {value : Value} {verdict : Verdict}
  {judges : Schema → Value → Verdict → Prop}

/-- Options that are tried refuse the value where they do so one by one. -/
theorem tallied_locates {options : List Schema} {verdicts : List Verdict}
    (each : ∀ verdict ∈ verdicts, verdict.Locates value) :
    (context.tallied options value verdicts).Locates value := by
  intro violations refused
  rcases Validator.Trial.verdict_rejected refused with
    ⟨_, rfl⟩ | ⟨_, ⟨numbers, rfl⟩ | ⟨numbers, rfl⟩⟩
  · refine ⟨_, rfl, .group (.here value) _ (fun failure member => ?_)⟩
    obtain ⟨number, causes, inside, rfl⟩ := Validator.of_mem_failures_tally _ _ member
    exact (each _ inside).located_group _
  · exact ⟨_, rfl, .part (.here value) _⟩
  · exact ⟨_, rfl, .part (.here value) _⟩

/-- A union refuses the value where its options do, or where it looks for its discriminator. -/
theorem UnionStep.locates {choices : List Schema}
    (parts : ∀ choice result, judges choice value result → result.Locates value)
    (step : context.UnionStep judges choices value verdict) : verdict.Locates value := by
  have tried : ∀ {options : List Schema} {verdicts : List Verdict},
      List.Forall₂ (fun choice result => judges choice value result) options verdicts →
      (context.tallied options value verdicts).Locates value := by
    intro options verdicts judged
    apply tallied_locates
    intro result member
    obtain ⟨choice, _, judged⟩ := forall₂_mem_right judged member
    exact parts choice result judged
  cases step with
  | selected decided object chosen judged => exact parts _ _ judged
  | unknown decided complete object unchosen =>
    subst object
    exact Verdict.locates_of_located (.at_key ..)
  | scalar decided complete other => exact Verdict.locates_refuse _ _
  | aside decided unchosen judged amounts => exact amounts ▸ tried judged
  | trial undecided judged amounts => exact amounts ▸ tried judged

/-- Under strict options every judgement that refuses says where. -/
theorem judged_locates (strict : context.settings = .strict) (sound : context.Sound schema)
    (keyed : value.Throughout Value.Keyed) (judged : context.Judges schema value verdict) :
    verdict.Locates value := by
  have faithful : context.settings.Faithful := strict ▸ Options.strict_faithful
  obtain ⟨_, inward, lone, keep⟩ := faithful
  revert keyed
  refine judged_induction (motive := fun _ value verdict =>
    value.Throughout Value.Keyed → verdict.Locates value) ?_ sound sound judged
  intro schema value verdict sound step keyed
  cases step with
  | leaf leaf judged => exact leaf_locates leaf sound.here.knownFormats judged
  | notItems shape none => exact Verdict.locates_refuse _ _
  | miscounted shape found count => exact Verdict.locates_refuse _ _
  | items place shape found count judged => exact Verdict.locates_accepted _ _
  | itemRefused index shape found count there judged =>
    obtain ⟨content, tags, rfl⟩ := Validator.itemsOf?_eq_some lone found
    have inner := keyed.item (List.mem_of_getElem? there)
    exact (judged.2.2 inner).under_item there
  | notObject shape other => exact Verdict.locates_refuse _ _
  | fields place shape object judged => exact Verdict.locates_accepted _ _
  | fieldRefused shape object judged =>
    subst object
    rw [inward, Bool.false_and] at judged
    apply judged.locates keyed.here
    intro body key item causes member judged
    exact judged.2.2 (keyed.field member)
  | union shape judged => exact judged.locates (fun choice result judged => judged.2.2 keyed)
  | @intersection node components verdict shape chain =>
    cases verdict with
    | accepted answer => exact Verdict.locates_accepted _ _
    | rejected violations =>
      -- what the components so far have made of the value is all of it that has a value
      obtain ⟨component, _, item, causes, number, trimmed, judged, rfl⟩ :=
        chain.refused_at (Value.Trimmed.refl keyed) (fun component _ item answer trimmed judged =>
          trimmed.trans (answer_trimmed strict judged.1 trimmed.keyed judged.2.1))
      have located := (judged.2.2 trimmed.keyed).of_trimmed trimmed
      exact Verdict.locates_of_located (located.located_group _)
  | @named ref inner verdict shape other judged tagged =>
    subst tagged
    cases inner with
    | accepted answer => exact Verdict.locates_accepted _ _
    | rejected violations => exact judged.2.2 keyed

/-- Paths are true: under strict options a value is refused by exactly one violation, which is, with
every violation behind it, at a part of the value or at a field that an object in it lacks. -/
theorem refused_located (strict : context.settings = .strict) (sound : context.Sound schema)
    (keyed : value.Throughout Value.Keyed) {violations : List Violation}
    (judged : context.Judges schema value (.rejected violations)) :
    ∃ violation, violations = [violation] ∧ violation.Located value :=
  judged_locates strict sound keyed judged violations rfl

end Context

namespace Shapes

/-- A group of a circle without a radius. -/
def misdrawn : Value :=
  .object (.run 0) [("kind", .string "group"), ("members", .array (.run 1) [
    .object (.run 2) [("kind", .string "circle")] []] [])] []

/-- The group is refused at the radius of its first member, which is not there. -/
theorem misdrawn_located :
    let context : Context := ⟨definitions, fun _ => none, .strict⟩
    let violations := [Violation.single ["members", "[0]", "radius"] .missingProperty]
    context.Judges shape misdrawn (.rejected violations) ∧
      ∃ violation, violations = [violation] ∧ violation.Located misdrawn := by
  intro context violations
  have keyed : misdrawn.Throughout Value.Keyed := by
    simp [misdrawn, Value.Keyed, Fields.Distinct, Fields.keys]
  have judged : context.Judges shape misdrawn (.rejected violations) := ⟨20, .run 3, rfl⟩
  exact ⟨judged, Context.refused_located rfl (sound _ _ (.head _)) keyed judged⟩

end Shapes

end Conform
