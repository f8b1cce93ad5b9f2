import Conform.Proofs.Attempt.Basic
import Conform.Proofs.Lists
import Mathlib.Data.List.Nodup

/-!
# What checks rest on

Each check is given the judgements of its parts. This module says, for each check and each
way it can end, which of those judgements it rests on and how its own verdict comes from
theirs. The judgements are relations here, between what judges, a value and a verdict, so
that nothing is said of the order in which a check goes through the parts.
-/

namespace Conform

namespace Fields

/-- The value under a key, or the absence of a value. -/
def lookup (key : String) (fields : Fields Value) : Value :=
  (fields.get? key).getD .undefined

/-- The key of a field is among the keys. -/
theorem mem_keys {α : Type} {key : String} {value : α} {fields : Fields α}
    (member : (key, value) ∈ fields) : key ∈ fields.keys :=
  List.mem_map_of_mem (f := Prod.fst) member

/-- A key among the keys is that of a field. -/
theorem exists_mem_of_mem_keys {α : Type} {key : String} {fields : Fields α}
    (member : key ∈ fields.keys) : ∃ value, (key, value) ∈ fields := by
  obtain ⟨⟨_, value⟩, inside, rfl⟩ := List.mem_map.mp member
  exact ⟨value, inside⟩

/-- A value that is found is that of a field. -/
theorem mem_of_lookup {key : String} {fields : Fields Value}
    (present : (fields.lookup key).isUndefined = false) : (key, fields.lookup key) ∈ fields := by
  unfold lookup at present ⊢
  cases found : fields.get? key with
  | none =>
    rw [found] at present
    cases present
  | some value => exact mem_of_get? found

end Fields

namespace Validator

/-! ## Arrays -/

/-- Without the reading of lone scalars, the items of an array are its contents. -/
theorem itemsOf?_eq_some {options : Options} (lone : options.allowConvertForArrayType = false)
    {value : Value} {items : List Value} (found : itemsOf? options value = some items) :
    ∃ content tags, value = .array content items tags := by
  cases value <;> simp_all [itemsOf?]

section

variable {check : Nat → Value → Attempt}

/-- Accepted items are accepted one by one. -/
theorem checkItems_accepted {index : Nat} {items answers : List Value}
    (ended : checkItems check index items = .ok (.ok answers)) :
    List.Forall₂ (fun item answer => ∃ index, check index item = .ok (.accepted answer))
      items answers := by
  induction items generalizing index answers with
  | nil =>
    obtain rfl := Except.ok.inj (Except.ok.inj ended)
    exact .nil
  | cons item rest ih =>
    rw [checkItems] at ended
    split at ended
    · cases ended
    · cases ended
    · next first =>
      split at ended
      · cases ended
      · cases ended
      · next others =>
        obtain rfl := Except.ok.inj (Except.ok.inj ended)
        exact .cons ⟨_, first⟩ (ih others)

/-- Items are refused because one of them is. -/
theorem checkItems_refused {index : Nat} {items : List Value} {violations : List Violation}
    (ended : checkItems check index items = .ok (.error violations)) :
    ∃ (offset : Nat) (item : Value) (causes : List Violation), items[offset]? = some item ∧
      check (index + offset) item = .ok (.rejected causes) ∧
      violations = causes.map (Violation.under (Violation.indexSegment (index + offset))) := by
  induction items generalizing index with
  | nil => cases ended
  | cons item rest ih =>
    rw [checkItems] at ended
    split at ended
    · cases ended
    · next first =>
      obtain rfl := Except.error.inj (Except.ok.inj ended)
      exact ⟨0, item, _, rfl, first, rfl⟩
    · split at ended
      · cases ended
      · next others =>
        obtain rfl := Except.error.inj (Except.ok.inj ended)
        obtain ⟨offset, refused, causes, there, judged, rfl⟩ := ih others
        rw [Nat.add_right_comm, Nat.add_assoc] at judged ⊢
        exact ⟨offset + 1, refused, causes, there, judged, rfl⟩
      · cases ended

/-- An array is accepted item by item, or refused for one reason. -/
theorem checkArray_judged {least most : Option Nat} {tag : Option Schema} {options : Options}
    {place : Identity} {value : Value} {verdict : Verdict}
    (ended : checkArray check least most tag options place value = .ok verdict) :
    (itemsOf? options value = none ∧ verdict = .refuse (.expected "array" value.kind)) ∨
      ∃ items, itemsOf? options value = some items ∧
        ((∃ reason, countReason? least most items.length = some reason ∧
            verdict = .refuse reason) ∨
          (countReason? least most items.length = none ∧
            ((∃ answers, verdict = .accepted (.array place answers (value.tags.merge tag.toList)) ∧
                List.Forall₂ (fun item answer =>
                  ∃ index, check index item = .ok (.accepted answer)) items answers) ∨
              ∃ (position : Nat) (item : Value) (causes : List Violation),
                items[position]? = some item ∧ check position item = .ok (.rejected causes) ∧
                verdict = .rejected
                  (causes.map (Violation.under (Violation.indexSegment position)))))) := by
  unfold checkArray at ended
  split at ended
  · next none => exact .inl ⟨none, (Except.ok.inj ended).symm⟩
  · next items found =>
    refine .inr ⟨items, found, ?_⟩
    split at ended
    · next reason count => exact .inl ⟨reason, count, (Except.ok.inj ended).symm⟩
    · next count =>
      refine .inr ⟨count, ?_⟩
      split at ended
      · cases ended
      · next refused =>
        obtain rfl := Except.ok.inj ended
        obtain ⟨position, item, causes, there, judged, rfl⟩ := checkItems_refused refused
        rw [Nat.zero_add] at judged ⊢
        exact .inr ⟨position, item, causes, there, judged, rfl⟩
      · next accepted =>
        obtain rfl := Except.ok.inj ended
        exact .inl ⟨_, rfl, checkItems_accepted accepted⟩

end

/-! ## Objects -/

section

variable {α : Type} (judges : α → Value → Verdict → Prop)

/-- How a declared property is answered: not at all when it has no value and may lack one. -/
inductive PropertyStep (wire : Bool) (fields : Fields Value) (property : Property α) :
    Option Value → Prop
  | absent (missing : (fields.lookup (readKey wire property)).isUndefined = true)
      (optional : property.required = false) : PropertyStep wire fields property none
  | present {answer : Value}
      (there : (fields.lookup (readKey wire property)).isUndefined = false)
      (judged : judges property.body (fields.lookup (readKey wire property)) (.accepted answer)) :
      PropertyStep wire fields property (some answer)

/-- Off the wire a property is read under its own name. -/
@[simp] theorem readKey_false (property : Property α) : readKey false property = property.name := by
  unfold readKey
  cases property.wireName <;> rfl

/-- The answers of declared properties in the order of declaration. -/
def declaredAnswers (properties : List (Property α)) (found : String → Option Value) :
    Fields Value :=
  properties.filterMap (fun property =>
    (found property.name).map (fun answer => (property.name, answer)))

/-- Whether a key is read for a declared property or is its name. -/
def isTaken (wire : Bool) (properties : List (Property α)) (key : String) : Bool :=
  properties.any (fun property => readKey wire property = key || property.name = key)

/-- Off the wire the taken keys are the names. -/
theorem isTaken_false (properties : List (Property α)) (key : String) :
    isTaken false properties key = true ↔ key ∈ Property.names properties := by
  simp [isTaken, Property.names]

/-- The fields with a value that no declared property takes. -/
def otherFields (wire : Bool) (properties : List (Property α)) (fields : Fields Value) :
    Fields Value :=
  fields.filter (fun entry => !(isTaken wire properties entry.1 || entry.2.isUndefined))

/-- How the remaining fields are answered. -/
def OthersStep (drop : Bool) : Additional α → Fields Value → Fields Value → Prop
  | .keep, others, extras => extras = others
  | .deny, others, extras => extras = [] ∧ (drop = true ∨ others = [])
  | .each body, others, extras =>
    List.Forall₂ (fun entry entry' => entry.1 = entry'.1 ∧
      judges body entry.2 (.accepted entry'.2)) others extras

/-- The fields that an accepted object is answered with. -/
inductive FieldsStep (wire drop : Bool) (properties : List (Property α))
    (additional : Additional α) (fields : Fields Value) : Fields Value → Prop
  | mk (found : String → Option Value) (extras : Fields Value)
      (permitted : ∀ entry ∈ fields, entry.1 ∉ forbiddenKeys)
      (declared : ∀ property ∈ properties,
        PropertyStep judges wire fields property (found property.name))
      (others : OthersStep judges drop additional (otherFields wire properties fields) extras) :
      FieldsStep wire drop properties additional fields
        (declaredAnswers properties found ++ extras)

/-- The violations that the remaining fields are refused with. -/
inductive OthersRefused (drop : Bool) (additional : Additional α) (others : Fields Value) :
    List Violation → Prop
  | unexpected {key : String} {value : Value} (closed : additional = .deny) (kept : drop = false)
      (member : (key, value) ∈ others) :
      OthersRefused drop additional others [.single [key] .unexpectedProperty]
  | judged {key : String} {value : Value} {body : α} {causes : List Violation}
      (typed : additional = .each body) (member : (key, value) ∈ others)
      (judged : judges body value (.rejected causes)) :
      OthersRefused drop additional others (causes.map (Violation.under key))

/-- The violations that an object is refused with. -/
inductive FieldsRefused (wire drop : Bool) (properties : List (Property α))
    (additional : Additional α) (fields : Fields Value) : List Violation → Prop
  | forbidden {key : String} {value : Value} (member : (key, value) ∈ fields)
      (forbidden : key ∈ forbiddenKeys) :
      FieldsRefused wire drop properties additional fields [.single [key] .forbiddenField]
  | missing {property : Property α} (member : property ∈ properties)
      (absent : (fields.lookup (readKey wire property)).isUndefined = true)
      (required : property.required = true) :
      FieldsRefused wire drop properties additional fields
        [.single [property.name] .missingProperty]
  | property {property : Property α} {causes : List Violation} (member : property ∈ properties)
      (present : (fields.lookup (readKey wire property)).isUndefined = false)
      (judged : judges property.body (fields.lookup (readKey wire property)) (.rejected causes)) :
      FieldsRefused wire drop properties additional fields
        (causes.map (Violation.under property.name))
  | others {violations : List Violation}
      (refused : OthersRefused judges drop additional (otherFields wire properties fields)
        violations) :
      FieldsRefused wire drop properties additional fields violations

end

section

variable {α : Type} {judges : α → Value → Verdict → Prop} {wire drop : Bool}
  {properties : List (Property α)} {additional : Additional α} {fields answers : Fields Value}
  {key : String} {answer : Value}

/-- The remaining fields are the fields with a value under a key that is not taken. -/
theorem mem_otherFields {value : Value} :
    (key, value) ∈ otherFields wire properties fields ↔
      (key, value) ∈ fields ∧ isTaken wire properties key = false ∧
        value.isUndefined = false := by
  simp [otherFields, List.mem_filter]

/-- The entries among the answers of declared properties. -/
theorem mem_declaredAnswers {found : String → Option Value} :
    (key, answer) ∈ declaredAnswers properties found ↔
      ∃ property ∈ properties, property.name = key ∧ found key = some answer := by
  simp only [declaredAnswers, List.mem_filterMap, Option.map_eq_some_iff, Prod.mk.injEq]
  constructor
  · rintro ⟨property, member, answer, found, rfl, rfl⟩
    exact ⟨property, member, rfl, found⟩
  · rintro ⟨property, member, rfl, found⟩
    exact ⟨property, member, answer, found, rfl, rfl⟩

/-- An answer among the remaining fields is for one of the same key. -/
theorem OthersStep.origin {others extras : Fields Value}
    (step : OthersStep judges drop additional others extras) (member : (key, answer) ∈ extras) :
    ∃ value, (key, value) ∈ others ∧ ((additional = .keep ∧ answer = value) ∨
      ∃ body, additional = .each body ∧ judges body value (.accepted answer)) := by
  cases additional with
  | keep =>
    obtain rfl : extras = others := step
    exact ⟨answer, member, .inl ⟨rfl, rfl⟩⟩
  | deny =>
    obtain ⟨rfl, _⟩ := step
    cases member
  | each body =>
    obtain ⟨⟨_, value⟩, inside, rfl, judged⟩ := forall₂_mem_right step member
    exact ⟨value, inside, .inr ⟨body, rfl, judged⟩⟩

/-- Where a field of an accepted object comes from. -/
theorem FieldsStep.origin
    (step : FieldsStep judges wire drop properties additional fields answers)
    (member : (key, answer) ∈ answers) :
    (∃ property ∈ properties, property.name = key ∧
        (fields.lookup (readKey wire property)).isUndefined = false ∧
        judges property.body (fields.lookup (readKey wire property)) (.accepted answer)) ∨
      ∃ value, (key, value) ∈ otherFields wire properties fields ∧
        ((additional = .keep ∧ answer = value) ∨
          ∃ body, additional = .each body ∧ judges body value (.accepted answer)) := by
  obtain ⟨found, extras, permitted, declared, others⟩ := step
  rcases List.mem_append.mp member with named | extra
  · obtain ⟨property, listed, rfl, answered⟩ := mem_declaredAnswers.mp named
    have step := declared property listed
    rw [answered] at step
    cases step with
    | present there judged => exact .inl ⟨property, listed, rfl, there, judged⟩
  · exact .inr (others.origin extra)

end

section

variable {α β : Type} {judges : β → Value → Verdict → Prop} {judges' : α → Value → Verdict → Prop}
  {change : α → β} {wire drop : Bool} {properties : List (Property α)}
  {additional : Additional α} {fields : Fields Value}

/-- Which fields are left over does not depend on the bodies of the properties. -/
theorem otherFields_map :
    otherFields wire (properties.map (Property.mapBody change)) fields =
      otherFields wire properties fields := by
  simp only [otherFields, isTaken, List.any_map]
  rfl

/-- Which answers are declared does not depend on the bodies of the properties. -/
theorem declaredAnswers_map (found : String → Option Value) :
    declaredAnswers (properties.map (Property.mapBody change)) found =
      declaredAnswers properties found := by
  simp only [declaredAnswers, List.filterMap_map]
  rfl

/-- Fields are accepted by bodies when they are by what the bodies stand for. -/
theorem FieldsStep.of_map
    (weaker : ∀ body ∈ properties.map Property.body ++ additional.bodies, ∀ item verdict,
      judges (change body) item verdict → judges' body item verdict)
    {answers : Fields Value}
    (step : FieldsStep judges wire drop (properties.map (Property.mapBody change))
      (additional.mapBody change) fields answers) :
    FieldsStep judges' wire drop properties additional fields answers := by
  obtain ⟨found, extras, permitted, declared, others⟩ := step
  rw [declaredAnswers_map]
  refine .mk found extras permitted (fun property member => ?_) ?_
  · have inside := additional.declared_mem member
    have step : PropertyStep judges wire fields (property.mapBody change) (found property.name) :=
      declared _ (List.mem_map_of_mem member)
    generalize found property.name = answer at step ⊢
    cases step with
    | absent missing optional => exact .absent missing optional
    | present there judged => exact .present there (weaker _ inside _ _ judged)
  · rw [otherFields_map] at others
    cases additional with
    | keep => exact others
    | deny => exact others
    | each body =>
      refine List.Forall₂.imp ?_ others
      rintro entry entry' ⟨keys, judged⟩
      exact ⟨keys, weaker body (Additional.each_mem properties rfl) _ _ judged⟩

/-- Fields are refused by bodies when they are by what the bodies stand for. -/
theorem FieldsRefused.of_map
    (weaker : ∀ body ∈ properties.map Property.body ++ additional.bodies, ∀ item verdict,
      judges (change body) item verdict → judges' body item verdict)
    {violations : List Violation}
    (step : FieldsRefused judges wire drop (properties.map (Property.mapBody change))
      (additional.mapBody change) fields violations) :
    FieldsRefused judges' wire drop properties additional fields violations := by
  cases step with
  | forbidden member forbidden => exact .forbidden member forbidden
  | missing member absent required =>
    obtain ⟨property, listed, rfl⟩ := List.mem_map.mp member
    have refused : FieldsRefused judges' wire drop properties additional fields
        [.single [property.name] .missingProperty] := .missing listed absent required
    exact refused
  | @property _ causes member present judged =>
    obtain ⟨property, listed, rfl⟩ := List.mem_map.mp member
    have inside := additional.declared_mem listed
    have refused : FieldsRefused judges' wire drop properties additional fields
        (causes.map (Violation.under property.name)) :=
      .property listed present (weaker _ inside _ _ judged)
    exact refused
  | others refused =>
    rw [otherFields_map] at refused
    cases additional with
    | keep =>
      cases refused with
      | unexpected closed => cases closed
      | judged typed => cases typed
    | deny =>
      cases refused with
      | unexpected closed kept member => exact .others (.unexpected rfl kept member)
      | judged typed => cases typed
    | each body =>
      cases refused with
      | unexpected closed => cases closed
      | judged typed member judged =>
        obtain rfl := Additional.each.inj typed
        have inside : body ∈ properties.map Property.body ++ (Additional.each body).bodies :=
          Additional.each_mem properties rfl
        exact .others (.judged rfl member (weaker body inside _ _ judged))

end

section

variable {check : Nat → Validator → Value → Attempt}
  {judges : Validator → Value → Verdict → Prop}
  (ends : ∀ index inner item verdict, check index inner item = .ok verdict →
    judges inner item verdict)
  {wire : Bool} {properties : List (Property Validator)} {fields : Fields Value}

/-- The answers so far are those of declared properties that have a value. -/
def Answered (judges : Validator → Value → Verdict → Prop) (wire : Bool)
    (properties : List (Property Validator)) (fields answers : Fields Value) : Prop :=
  ∀ property ∈ properties, ∀ answer, answers.get? property.name = some answer →
    PropertyStep judges wire fields property (some answer)

/-- One more answer, under the name of a declared property. -/
theorem Answered.insert {answers : Fields Value} {property : Property Validator} {answer : Value}
    (names : (Property.names properties).Nodup)
    (answered : Answered judges wire properties fields answers) (member : property ∈ properties)
    (step : PropertyStep judges wire fields property (some answer)) :
    Answered judges wire properties fields (answers.insert property.name answer) := by
  intro other among found equal
  by_cases same : other.name = property.name
  · obtain rfl := List.inj_on_of_nodup_map names among member same
    rw [Fields.get?_insert_self] at equal
    obtain rfl := Option.some.inj equal
    exact step
  · rw [Fields.get?_insert_of_ne _ _ same] at equal
    exact answered other among found equal

include ends

/-- Accepted properties: every property in the order is answered or may be absent. -/
theorem checkProperties_accepted (names : (Property.names properties).Nodup) {order : List Nat}
    {answers final : Fields Value} (answered : Answered judges wire properties fields answers)
    (ended : checkProperties check wire properties fields order answers = .ok (.ok final)) :
    Answered judges wire properties fields final ∧
      (∀ name ∈ answers.keys, name ∈ final.keys) ∧
      ∀ index ∈ order, ∀ property, properties[index]? = some property →
        property.name ∈ final.keys ∨ PropertyStep judges wire fields property none := by
  induction order generalizing answers with
  | nil =>
    obtain rfl := Except.ok.inj (Except.ok.inj ended)
    exact ⟨answered, fun _ => id, fun _ member => by cases member⟩
  | cons index rest ih =>
    rw [checkProperties] at ended
    split at ended
    · next absent =>
      obtain ⟨invariant, kept, covered⟩ := ih answered ended
      refine ⟨invariant, kept, fun position member property found => ?_⟩
      rcases List.mem_cons.mp member with rfl | later
      · rw [absent] at found
        cases found
      · exact covered position later property found
    · next property declared =>
      have member := List.mem_of_getElem? declared
      simp only at ended
      split at ended
      · next missing =>
        split at ended
        · cases ended
        · next optional =>
          obtain ⟨invariant, kept, covered⟩ := ih answered ended
          refine ⟨invariant, kept, fun position among other found => ?_⟩
          rcases List.mem_cons.mp among with rfl | later
          · obtain rfl := Option.some.inj (declared.symm.trans found)
            exact .inr (.absent missing (Bool.eq_false_iff.mpr optional))
          · exact covered position later other found
      · next there =>
        split at ended
        · cases ended
        · cases ended
        · next answer judged =>
          have step : PropertyStep judges wire fields property (some answer) :=
            .present (Bool.eq_false_iff.mpr there) (ends _ _ _ _ judged)
          obtain ⟨invariant, kept, covered⟩ := ih (answered.insert names member step) ended
          have written : ∀ name, name = property.name ∨ name ∈ answers.keys →
              name ∈ (answers.insert property.name answer).keys := by
            intro name either
            rw [Fields.keys_insert]
            split
            · next known => exact either.elim (fun equal => equal ▸ known) id
            · rw [List.mem_append, List.mem_singleton]
              exact either.symm
          refine ⟨invariant, fun name old => kept name (written name (.inr old)),
            fun position among other found => ?_⟩
          rcases List.mem_cons.mp among with rfl | later
          · obtain rfl := Option.some.inj (declared.symm.trans found)
            exact .inl (kept _ (written _ (.inl rfl)))
          · exact covered position later other found

/-- Properties are refused because one of them is. -/
theorem checkProperties_refused {order : List Nat} {answers : Fields Value}
    {violations : List Violation} (drop : Bool) (additional : Additional Validator)
    (ended : checkProperties check wire properties fields order answers =
      .ok (.error violations)) :
    FieldsRefused judges wire drop properties additional fields violations := by
  induction order generalizing answers with
  | nil => cases ended
  | cons index rest ih =>
    rw [checkProperties] at ended
    split at ended
    · exact ih ended
    · next property declared =>
      have member := List.mem_of_getElem? declared
      simp only at ended
      split at ended
      · next missing =>
        split at ended
        · next required =>
          obtain rfl := Except.error.inj (Except.ok.inj ended)
          exact .missing member missing required
        · exact ih ended
      · next there =>
        split at ended
        · cases ended
        · next judged =>
          obtain rfl := Except.error.inj (Except.ok.inj ended)
          exact .property member (Bool.eq_false_iff.mpr there) (ends _ _ _ _ judged)
        · exact ih ended

/-- The fields that are not skipped are answered. -/
theorem checkExtras_accepted {drop : Bool} {skip : String → Bool}
    {additional : Additional Validator} {index : Nat} {fields extras : Fields Value}
    (ended : checkExtras check drop skip additional index fields = .ok (.ok extras)) :
    OthersStep judges drop additional
      (fields.filter (fun entry => !(skip entry.1 || entry.2.isUndefined))) extras := by
  induction fields generalizing index extras with
  | nil =>
    obtain rfl := Except.ok.inj (Except.ok.inj ended)
    cases additional with
    | keep => exact rfl
    | deny => exact ⟨rfl, .inr rfl⟩
    | each body => exact .nil
  | cons entry rest ih =>
    obtain ⟨key, value⟩ := entry
    simp only [checkExtras] at ended
    split at ended
    · next skipped =>
      rw [List.filter_cons_of_neg (by rw [skipped]; exact Bool.false_ne_true)]
      exact ih ended
    · next taken =>
      rw [List.filter_cons_of_pos (by simpa using taken)]
      cases additional with
      | keep =>
        simp only at ended
        split at ended
        · cases ended
        · cases ended
        · next others =>
          obtain rfl := Except.ok.inj (Except.ok.inj ended)
          exact congrArg _ (ih others)
      | deny =>
        simp only at ended
        split at ended
        · next drops => exact ⟨(ih ended).1, .inl drops⟩
        · cases ended
      | each body =>
        simp only at ended
        split at ended
        · cases ended
        · cases ended
        · next judged =>
          split at ended
          · cases ended
          · cases ended
          · next others =>
            obtain rfl := Except.ok.inj (Except.ok.inj ended)
            exact .cons ⟨rfl, ends _ _ _ _ judged⟩ (ih others)

omit ends

/-- A refused field is among more fields too. -/
theorem OthersRefused.later {α : Type} {judges : α → Value → Verdict → Prop} {drop : Bool}
    {additional : Additional α} {others : Fields Value} {violations : List Violation}
    (refused : OthersRefused judges drop additional others violations)
    {entry : String × Value} :
    OthersRefused judges drop additional (entry :: others) violations := by
  cases refused with
  | unexpected closed kept member => exact .unexpected closed kept (.tail _ member)
  | judged typed member judged => exact .judged typed (.tail _ member) judged

include ends

/-- Fields are refused because one that is not skipped is. -/
theorem checkExtras_refused {drop : Bool} {skip : String → Bool}
    {additional : Additional Validator} {index : Nat} {fields : Fields Value}
    {violations : List Violation}
    (ended : checkExtras check drop skip additional index fields = .ok (.error violations)) :
    OthersRefused judges drop additional
      (fields.filter (fun entry => !(skip entry.1 || entry.2.isUndefined))) violations := by
  induction fields generalizing index with
  | nil => cases ended
  | cons entry rest ih =>
    obtain ⟨key, value⟩ := entry
    simp only [checkExtras] at ended
    split at ended
    · next skipped =>
      rw [List.filter_cons_of_neg (by rw [skipped]; exact Bool.false_ne_true)]
      exact ih ended
    · next taken =>
      rw [List.filter_cons_of_pos (by simpa using taken)]
      cases additional with
      | keep =>
        simp only at ended
        split at ended
        · cases ended
        · next others =>
          obtain rfl := Except.error.inj (Except.ok.inj ended)
          exact (ih others).later
        · cases ended
      | deny =>
        simp only at ended
        split at ended
        · exact (ih ended).later
        · next drops =>
          obtain rfl := Except.error.inj (Except.ok.inj ended)
          exact .unexpected rfl (Bool.eq_false_iff.mpr drops) (.head _)
      | each body =>
        simp only at ended
        split at ended
        · cases ended
        · next judged =>
          obtain rfl := Except.error.inj (Except.ok.inj ended)
          exact .judged rfl (.head _) (ends _ _ _ _ judged)
        · split at ended
          · cases ended
          · next others =>
            obtain rfl := Except.error.inj (Except.ok.inj ended)
            exact (ih others).later
          · cases ended

omit ends

/-- When every property is checked, the keys left aside are those that are taken. -/
theorem isDeclaredKey_eq_isTaken {order : List Nat}
    (all : ∀ index, index ∈ order ↔ index < properties.length) (key : String) :
    isDeclaredKey wire properties order key = isTaken wire properties key := by
  rw [Bool.eq_iff_iff]
  simp only [isDeclaredKey, isTaken, Bool.or_eq_true, List.any_eq_true, List.mem_filterMap,
    decide_eq_true_eq]
  constructor
  · rintro (⟨property, ⟨index, _, found⟩, read⟩ | ⟨property, member, named⟩)
    · exact ⟨property, List.mem_of_getElem? found, .inl read⟩
    · exact ⟨property, member, .inr named⟩
  · rintro ⟨property, member, read | named⟩
    · obtain ⟨index, found⟩ := List.getElem?_of_mem member
      have inside := (List.getElem?_eq_some_iff.mp found).1
      exact .inl ⟨property, ⟨index, (all index).mpr inside, found⟩, read⟩
    · exact .inr ⟨property, member, named⟩

include ends

/-- The properties and the remaining fields of an object are accepted, or one is refused. -/
theorem checkObject_judged {checkExtra : Nat → Validator → Value → Attempt}
    (endsExtra : ∀ index inner item verdict, checkExtra index inner item = .ok verdict →
      judges inner item verdict)
    (names : (Property.names properties).Nodup) {order : List Nat}
    (all : ∀ index, index ∈ order ↔ index < properties.length)
    {additional : Additional Validator} {tag : Schema} {options : Options} {place : Identity}
    {value : Value} {verdict : Verdict}
    (ended : checkObject check checkExtra properties order additional tag options place value =
      .ok verdict) :
    (value.kind ≠ .object ∧ verdict = .refuse (.expected "object" value.kind)) ∨
      ∃ content fields tags, value = .object content fields tags ∧
        ((∃ answers, verdict = .accepted (.object place answers (tags.insert tag)) ∧
            FieldsStep judges (options.convertFromNetwork && !tags.has tag)
              (options.unknownField = .drop) properties additional fields answers) ∨
          ∃ violations, verdict = .rejected violations ∧
            FieldsRefused judges (options.convertFromNetwork && !tags.has tag)
              (options.unknownField = .drop) properties additional fields violations) := by
  cases value with
  | object content fields tags =>
    refine .inr ⟨content, fields, tags, rfl, ?_⟩
    simp only [checkObject] at ended
    split at ended
    · next found =>
      obtain rfl := Except.ok.inj ended
      refine .inr ⟨_, rfl, .forbidden (List.mem_of_find?_eq_some found) ?_⟩
      simpa using List.find?_some found
    · next permitted =>
      split at ended
      · cases ended
      · next refused =>
        obtain rfl := Except.ok.inj ended
        exact .inr ⟨_, rfl, checkProperties_refused ends _ _ refused⟩
      · next answers declared =>
        split at ended
        · cases ended
        · next refused =>
          obtain rfl := Except.ok.inj ended
          have others := checkExtras_refused endsExtra refused
          simp only [isDeclaredKey_eq_isTaken all] at others
          exact .inr ⟨_, rfl, .others others⟩
        · next extras accepted =>
          obtain rfl := Except.ok.inj ended
          have others := checkExtras_accepted endsExtra accepted
          simp only [isDeclaredKey_eq_isTaken all] at others
          refine .inl ⟨_, rfl, .mk (fun name => answers.get? name) extras ?_ ?_ others⟩
          · intro entry member forbidden
            exact absurd forbidden (by simpa using List.find?_eq_none.mp permitted entry member)
          · have unanswered : Answered judges (options.convertFromNetwork && !tags.has tag)
                properties fields [] := fun _ _ _ found => by cases found
            obtain ⟨answered, _, covered⟩ :=
              checkProperties_accepted ends names unanswered declared
            intro property member
            obtain ⟨index, found⟩ := List.getElem?_of_mem member
            have inside := (List.getElem?_eq_some_iff.mp found).1
            cases answer : answers.get? property.name with
            | some answer' => exact answered property member answer' answer
            | none =>
              rcases covered index ((all index).mpr inside) property found with known | step
              · exact absurd known (Fields.get?_eq_none_iff.mp answer)
              · exact step
  | _ => exact .inl ⟨by simp [Value.kind], (Except.ok.inj ended).symm⟩

end

/-- The check of the remaining fields has no verdict where the first of them has none. -/
theorem checkExtras_stopped {check : Nat → Validator → Value → Attempt} {skip : String → Bool}
    {inner : Validator} {index : Nat} {key : String} {value : Value} {stop : Stop} (drop : Bool)
    (rest : Fields Value) (kept : skip key = false) (present : value.isUndefined = false)
    (stopped : check index inner value = .error stop) :
    checkExtras check drop skip (.each inner) index ((key, value) :: rest) = .error stop := by
  simp only [checkExtras, kept, present, stopped, Bool.or_self, Bool.false_eq_true, if_false]

/-- An object has no verdict where the first of its properties that is checked has none. -/
theorem checkObject_stopped {check checkExtra : Nat → Validator → Value → Attempt}
    {properties : List (Property Validator)} {additional : Additional Validator} {tag : Schema}
    {options : Options} {place content : Identity} {fields : Fields Value} {tags : Tags}
    {index : Nat} {rest : List Nat} {property : Property Validator} {stop : Stop}
    (permitted : ∀ entry ∈ fields, entry.1 ∉ forbiddenKeys)
    (listed : properties[index]? = some property)
    (present : (fields.lookup (readKey (options.convertFromNetwork && !tags.has tag)
      property)).isUndefined = false)
    (stopped : check index property.body (fields.lookup
      (readKey (options.convertFromNetwork && !tags.has tag) property)) = .error stop) :
    checkObject check checkExtra properties (index :: rest) additional tag options place
      (.object content fields tags) = .error stop := by
  have none : fields.find? (fun entry => forbiddenKeys.contains entry.1) = none :=
    List.find?_eq_none.mpr (fun entry member => by simpa using permitted entry member)
  rw [Fields.lookup] at present stopped
  simp only [checkObject, none, checkProperties, listed, present, stopped, Bool.false_eq_true,
    if_false]

/-! ## Components -/

/-- How a value fares on its way through components; `tags` are those of the answers so
far. -/
inductive Chain {α : Type} (judges : α → Value → Verdict → Prop) :
    List α → Value → Tags → Verdict → Prop
  | done (value : Value) (tags : Tags) :
      Chain judges [] value tags (.accepted (value.withTags tags))
  | next {component : α} {rest : List α} {value answer : Value} {tags : Tags} {verdict : Verdict}
      (judged : judges component value (.accepted answer))
      (further : Chain judges rest answer (tags.merge answer.tags) verdict) :
      Chain judges (component :: rest) value tags verdict
  | refused {component : α} {rest : List α} {value : Value} {tags : Tags}
      {causes : List Violation} (number : Nat)
      (judged : judges component value (.rejected causes)) :
      Chain judges (component :: rest) value tags (.rejected [.group [] (.component number) causes])

/-- What components preserve holds of the last answer, which the chain answers with more
tags. -/
theorem Chain.accepted {α : Type} {judges : α → Value → Verdict → Prop} {holds : Value → Prop}
    {components : List α} {value answer : Value} {tags : Tags}
    (chain : Chain judges components value tags (.accepted answer)) (start : holds value)
    (kept : ∀ component ∈ components, ∀ item answer, holds item →
      judges component item (.accepted answer) → holds answer) :
    ∃ last tags, holds last ∧ answer = last.withTags tags := by
  induction components generalizing value tags with
  | nil =>
    cases chain
    exact ⟨value, tags, start, rfl⟩
  | cons component rest ih =>
    cases chain with
    | next judged further =>
      exact ih further (kept component (.head _) _ _ start judged)
        (fun other member => kept other (.tail _ member))

/-- When components refuse a value, one of them refuses what those before it made of the value. -/
theorem Chain.refused_at {α : Type} {judges : α → Value → Verdict → Prop} {holds : Value → Prop}
    {components : List α} {value : Value} {tags : Tags} {violations : List Violation}
    (chain : Chain judges components value tags (.rejected violations)) (start : holds value)
    (kept : ∀ component ∈ components, ∀ item answer, holds item →
      judges component item (.accepted answer) → holds answer) :
    ∃ component ∈ components, ∃ item causes number, holds item ∧
      judges component item (.rejected causes) ∧
      violations = [.group [] (.component number) causes] := by
  induction components generalizing value tags with
  | nil => cases chain
  | cons component rest ih =>
    cases chain with
    | next judged further =>
      obtain ⟨other, member, found⟩ := ih further (kept component (.head _) _ _ start judged)
        (fun other member => kept other (.tail _ member))
      exact ⟨other, .tail _ member, found⟩
    | refused number judged => exact ⟨component, .head _, _, _, number, start, judged, rfl⟩

/-- Every component of an accepting chain accepts a value that has what components preserve. -/
theorem Chain.each {α : Type} {judges : α → Value → Verdict → Prop} {holds : Value → Prop}
    {components : List α} {value answer : Value} {tags : Tags}
    (chain : Chain judges components value tags (.accepted answer)) (start : holds value)
    (kept : ∀ component ∈ components, ∀ item answer, holds item →
      judges component item (.accepted answer) → holds answer) :
    ∀ component ∈ components, ∃ item answer, holds item ∧
      judges component item (.accepted answer) := by
  induction components generalizing value tags with
  | nil => exact fun _ member => by cases member
  | cons component rest ih =>
    cases chain with
    | next judged further =>
      refine List.forall_mem_cons.mpr ⟨⟨value, _, start, judged⟩, ?_⟩
      exact ih further (kept component (.head _) _ _ start judged)
        (fun other member => kept other (.tail _ member))

/-- A chain of judges that say more is a chain of those that say less. -/
theorem Chain.of_map {α β : Type} {judges : β → Value → Verdict → Prop}
    {judges' : α → Value → Verdict → Prop} {change : α → β} {components : List α}
    (weaker : ∀ component ∈ components, ∀ item verdict,
      judges (change component) item verdict → judges' component item verdict)
    {value : Value} {tags : Tags} {verdict : Verdict}
    (chain : Chain judges (components.map change) value tags verdict) :
    Chain judges' components value tags verdict := by
  induction components generalizing value tags with
  | nil =>
    cases chain
    exact .done value tags
  | cons component rest ih =>
    cases chain with
    | next judged further =>
      exact .next (weaker _ (.head _) _ _ judged)
        (ih (fun other member => weaker other (.tail _ member)) further)
    | refused number judged => exact .refused number (weaker _ (.head _) _ _ judged)

/-- When components are checked, they judge the value one after another. -/
theorem checkComponents_judged {check : Nat → Validator → Value → Attempt}
    {judges : Validator → Value → Verdict → Prop}
    (ends : ∀ position component item verdict, check position component item = .ok verdict →
      judges component item verdict)
    {position : Nat} {components : List Validator} {value : Value} {tags : Tags}
    {verdict : Verdict}
    (ended : checkComponents check position components value tags = .ok verdict) :
    Chain judges components value tags verdict := by
  induction components generalizing position value tags with
  | nil =>
    obtain rfl := Except.ok.inj ended
    exact .done value tags
  | cons component rest ih =>
    rw [checkComponents] at ended
    split at ended
    · cases ended
    · next judged => exact .next (ends _ _ _ _ judged) (ih ended)
    · next judged =>
      obtain rfl := Except.ok.inj ended
      exact .refused position (ends _ _ _ _ judged)

end Validator

end Conform
