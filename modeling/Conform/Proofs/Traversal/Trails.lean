import Conform.Proofs.Revalidation.Restated
import Conform.Proofs.Traversal.Search

/-!
# Where tags come from

A trail leads from a schema, along the value that it answered, to a part that carries the tag
of a leaf: through names, properties, items, options and components, where every name on it
that is directly an object has left its tag on the part that it judged.

Answers grow: all parts stay where they are and keep their tags. So a trail through an answer
is a trail through all that later components make of it, and a part of an answer that carries
the tag of an object has it from the value, or there is a trail to the part.
-/

namespace Conform

namespace Value

/-- All parts of the value stay where they are and keep their tags. -/
def Grows (value answer : Value) : Prop :=
  ∀ place part, value.at? place = some part → part.isUndefined = false →
    ∃ grown, answer.at? place = some grown ∧ grown.isUndefined = false ∧
      ∀ schema, part.hasTag schema = true → grown.hasTag schema = true

/-- Tags do not touch the children. -/
theorem child?_withTags (position : Position) (value : Value) (schemas : List Schema) :
    (value.withTags schemas).child? position = value.child? position := by
  cases value <;> cases position <;> rfl

/-- Only containers carry tags. -/
theorem isUndefined_of_hasTag {value : Value} {schema : Schema} (tag : value.hasTag schema = true) :
    value.isUndefined = false := by
  cases value with
  | undefined => cases tag
  | _ => rfl

/-- Where there is no value, there is no part. -/
theorem isUndefined_of_at? {value part : Value} {place : List Position}
    (found : value.at? place = some part) (there : part.isUndefined = false) :
    value.isUndefined = false := by
  cases place with
  | nil =>
    cases found
    exact there
  | cons position rest =>
    cases value with
    | undefined => cases position <;> cases found
    | _ => rfl

namespace Grows

variable {value middle answer part : Value}

/-- A value grows into itself. -/
theorem refl (value : Value) : value.Grows value :=
  fun _ part found there => ⟨part, found, there, fun _ => id⟩

/-- What grows twice has grown. -/
theorem trans (first : value.Grows middle) (second : middle.Grows answer) : value.Grows answer := by
  intro place part found there
  obtain ⟨grown, found', there', tags⟩ := first place part found there
  obtain ⟨grown', found'', there'', tags'⟩ := second place grown found' there'
  exact ⟨grown', found'', there'', fun schema tag => tags' schema (tags schema tag)⟩

/-- What has grown keeps its tags. -/
theorem hasTag (grows : value.Grows answer) {schema : Schema}
    (tag : value.hasTag schema = true) : answer.hasTag schema = true := by
  obtain ⟨grown, found, _, tags⟩ := grows [] value rfl (isUndefined_of_hasTag tag)
  cases found
  exact tags schema tag

/-- A part one step down grows into the part of the answer there. -/
theorem child {position : Position} (grows : value.Grows answer)
    (held : value.child? position = some part) (there : part.isUndefined = false) :
    ∃ grown, answer.child? position = some grown ∧ grown.isUndefined = false ∧
      part.Grows grown := by
  obtain ⟨grown, found, there', _⟩ := grows [position] part (by rw [at?, held]; rfl) there
  rw [at?] at found
  obtain ⟨inner, held', same⟩ := Option.bind_eq_some_iff.mp found
  cases same
  refine ⟨_, held', there', fun place part found there => ?_⟩
  obtain ⟨grown', found', rest⟩ := grows (position :: place) part (by rw [at?, held]; exact found)
    there
  rw [at?, held'] at found'
  exact ⟨grown', found', rest⟩

/-- A value grows when it keeps its tags and each part one step down grows. -/
theorem of_children (there : answer.isUndefined = false)
    (tags : ∀ schema, value.hasTag schema = true → answer.hasTag schema = true)
    (each : ∀ position child, value.child? position = some child → child.isUndefined = false →
      ∃ grown, answer.child? position = some grown ∧ child.Grows grown) :
    value.Grows answer := by
  intro place part found there'
  cases place with
  | nil =>
    cases found
    exact ⟨answer, rfl, there, tags⟩
  | cons position rest =>
    rw [at?] at found
    obtain ⟨child, held, inner⟩ := Option.bind_eq_some_iff.mp found
    obtain ⟨grown, held', grows⟩ := each position child held (isUndefined_of_at? inner there')
    obtain ⟨part', found', kept⟩ := grows rest part inner there'
    exact ⟨part', by rw [at?, held']; exact found', kept⟩

/-- A value with more tags has grown. -/
theorem withTags (grows : value.Grows answer) (schemas : List Schema) :
    value.Grows (answer.withTags schemas) := by
  refine grows.trans (fun place part found there => ?_)
  cases place with
  | nil =>
    cases found
    refine ⟨_, rfl, ?_, fun schema tag => hasTag_withTags tag⟩
    cases answer <;> first | rfl | cases there
  | cons position rest =>
    refine ⟨part, ?_, there, fun schema tag => tag⟩
    rw [at?, child?_withTags]
    exact found

end Grows

end Value

namespace Traversal

/-- A trail of so many steps from a schema along a value to a part that carries the leaf's tag,
in which every name that is directly an object has left its tag. -/
inductive Trail (definitions : Definitions) (leaf : NamedRef) :
    Nat → Schema → Value → List Value.Position → Value → Prop
  | leaf {value : Value} (tag : value.hasTag (.named leaf) = true) :
      Trail definitions leaf 0 (.named leaf) value [] value
  | object {size : Nat} {ref : NamedRef} {value target : Value} {place : List Value.Position}
      (direct : ref.isObject definitions = true) (tag : value.hasTag (.named ref) = true)
      (further : Trail definitions leaf size (definitions ref) value place target) :
      Trail definitions leaf (size + 1) (.named ref) value place target
  | name {size : Nat} {ref : NamedRef} {value target : Value} {place : List Value.Position}
      (indirect : ref.isObject definitions = false)
      (further : Trail definitions leaf size (definitions ref) value place target) :
      Trail definitions leaf (size + 1) (.named ref) value place target
  | property {size node : Nat} {properties : List (Property Schema)}
      {additional : Additional Schema} {property : Property Schema} {value child target : Value}
      {place : List Value.Position} (member : property ∈ properties)
      (held : value.child? (.key property.name) = some child)
      (there : child.isUndefined = false)
      (further : Trail definitions leaf size property.body child place target) :
      Trail definitions leaf (size + 1) (.object node properties additional) value
        (.key property.name :: place) target
  | additional {size node : Nat} {properties : List (Property Schema)} {body : Schema}
      {key : String} {value child target : Value} {place : List Value.Position}
      (undeclared : key ∉ Property.names properties)
      (held : value.child? (.key key) = some child) (there : child.isUndefined = false)
      (further : Trail definitions leaf size body child place target) :
      Trail definitions leaf (size + 1) (.object node properties (.each body)) value
        (.key key :: place) target
  | items {size node : Nat} {items : Schema} {least most : Option Nat} {index : Nat}
      {value child target : Value} {place : List Value.Position}
      (held : value.child? (.index index) = some child)
      (there : child.isUndefined = false)
      (further : Trail definitions leaf size items child place target) :
      Trail definitions leaf (size + 1) (.array node items least most) value
        (.index index :: place) target
  | option {size node : Nat} {options : List Schema} {option : Schema} {value target : Value}
      {place : List Value.Position} (member : option ∈ options)
      (further : Trail definitions leaf size option value place target) :
      Trail definitions leaf (size + 1) (.union node options) value place target
  | component {size node : Nat} {components : List Schema} {component : Schema}
      {value target : Value} {place : List Value.Position} (member : component ∈ components)
      (further : Trail definitions leaf size component value place target) :
      Trail definitions leaf (size + 1) (.intersection node components) value place target

section

variable {definitions : Definitions} {leaf : NamedRef} {size : Nat} {schema : Schema}
  {value answer target : Value} {place : List Value.Position}

/-- A trail along a value is a trail along what the value grows into. -/
theorem Trail.grow (trail : Trail definitions leaf size schema value place target)
    (grows : value.Grows answer) :
    ∃ grown, Trail definitions leaf size schema answer place grown := by
  induction trail generalizing answer with
  | leaf tag => exact ⟨answer, .leaf (grows.hasTag tag)⟩
  | object direct tag further ih =>
    obtain ⟨grown, trail⟩ := ih grows
    exact ⟨grown, .object direct (grows.hasTag tag) trail⟩
  | name indirect further ih =>
    obtain ⟨grown, trail⟩ := ih grows
    exact ⟨grown, .name indirect trail⟩
  | property member held there further ih =>
    obtain ⟨child, held', there', inner⟩ := grows.child held there
    obtain ⟨grown, trail⟩ := ih inner
    exact ⟨grown, .property member held' there' trail⟩
  | additional undeclared held there further ih =>
    obtain ⟨child, held', there', inner⟩ := grows.child held there
    obtain ⟨grown, trail⟩ := ih inner
    exact ⟨grown, .additional undeclared held' there' trail⟩
  | items held there further ih =>
    obtain ⟨child, held', there', inner⟩ := grows.child held there
    obtain ⟨grown, trail⟩ := ih inner
    exact ⟨grown, .items held' there' trail⟩
  | option member further ih =>
    obtain ⟨grown, trail⟩ := ih grows
    exact ⟨grown, .option member trail⟩
  | component member further ih =>
    obtain ⟨grown, trail⟩ := ih grows
    exact ⟨grown, .component member trail⟩

/-- A trail leads to the part at its place, which carries the leaf's tag. -/
theorem Trail.leads (trail : Trail definitions leaf size schema value place target) :
    value.at? place = some target ∧ target.hasTag (.named leaf) = true := by
  induction trail with
  | leaf tag => exact ⟨rfl, tag⟩
  | property member held there further ih => exact ⟨by rw [Value.at?, held]; exact ih.1, ih.2⟩
  | additional undeclared held there further ih => exact ⟨by rw [Value.at?, held]; exact ih.1, ih.2⟩
  | items held there further ih => exact ⟨by rw [Value.at?, held]; exact ih.1, ih.2⟩
  | _ => assumption

/-- A tagged part of an answer is tagged in the value already, or a trail from one of the schemas
leads to it. -/
def Sourced (definitions : Definitions) (leaf : NamedRef) (schemas : List Schema)
    (value answer : Value) : Prop :=
  ∀ place part, answer.at? place = some part → part.hasTag (.named leaf) = true →
    (∃ old, value.at? place = some old ∧ old.hasTag (.named leaf) = true) ∨
      ∃ schema ∈ schemas, ∃ size target, Trail definitions leaf size schema answer place target

variable {schemas : List Schema}

/-- A value is the source of its own tags. -/
theorem Sourced.refl (value : Value) : Sourced definitions leaf schemas value value :=
  fun _ part found tag => .inl ⟨part, found, tag⟩

/-- Sources may be looked for in a value that grows into the one before. -/
theorem Sourced.trans {middle : Value} (first : Sourced definitions leaf schemas value middle)
    {single : Schema} (member : single ∈ schemas)
    (second : Sourced definitions leaf [single] middle answer) (grows : middle.Grows answer) :
    Sourced definitions leaf schemas value answer := by
  intro place part found tag
  obtain ⟨old, found', tag'⟩ | ⟨_, alone, trail⟩ := second place part found tag
  · obtain older | ⟨schema, listed, size, target, trail⟩ := first place old found' tag'
    · exact .inl older
    · obtain ⟨grown, trail⟩ := trail.grow grows
      exact .inr ⟨schema, listed, size, grown, trail⟩
  · cases List.mem_singleton.mp alone
    exact .inr ⟨single, member, trail⟩

/-- Further tags have sources when the leaf's tag is not a new one. -/
theorem Sourced.withTags {tags : List Schema}
    (sources : Sourced definitions leaf schemas value answer)
    (known : Schema.named leaf ∈ tags → answer.hasTag (.named leaf) = true) :
    Sourced definitions leaf schemas value (answer.withTags tags) := by
  intro place part found tag
  have before : ∃ old, answer.at? place = some old ∧ old.hasTag (.named leaf) = true := by
    cases place with
    | nil =>
      cases found
      exact ⟨answer, rfl, (Value.of_hasTag_withTags tag).elim id known⟩
    | cons position rest =>
      rw [Value.at?, Value.child?_withTags] at found
      exact ⟨part, found, tag⟩
  obtain ⟨old, found', tag'⟩ := before
  obtain older | ⟨schema, listed, size, target, trail⟩ := sources place old found' tag'
  · exact .inl older
  · obtain ⟨grown, trail⟩ := trail.grow (.withTags (.refl answer) tags)
    exact .inr ⟨schema, listed, size, grown, trail⟩

/-- Trails from one schema may be continued to trails from another. -/
theorem Sourced.imp {single : Schema} (sources : Sourced definitions leaf schemas value answer)
    (further : ∀ schema ∈ schemas, ∀ size place target,
      Trail definitions leaf size schema answer place target →
      Trail definitions leaf (size + 1) single answer place target) :
    Sourced definitions leaf [single] value answer := by
  intro place part found tag
  obtain old | ⟨schema, listed, size, target, trail⟩ := sources place part found tag
  · exact .inl old
  · exact .inr ⟨single, List.mem_singleton.mpr rfl, size + 1, target,
      further schema listed size place target trail⟩

end

end Traversal

namespace Context

open Traversal

variable {context : Context} {leaf : NamedRef} {schema : Schema} {size : Nat}
  {value answer target : Value} {place : List Value.Position}

/-- A name that is directly an object judges as an object. -/
theorem shape_of_isObject {ref : NamedRef} (object : ref.isObject context.definitions = true) :
    ∃ node properties additional,
      context.shape (.named ref) = .object node properties additional := by
  obtain ⟨node, properties, additional, found⟩ := NamedRef.isObject_iff.mp object
  refine ⟨node, properties, additional, ?_⟩
  rw [shape, found]
  rfl

/-- A trail from what judges in the place of a schema is one from the schema, which has left its
tag. -/
theorem trail_of_shape (tag : answer.hasTag schema = true)
    (trail : Trail context.definitions leaf size (context.shape schema) answer place target) :
    ∃ size, Trail context.definitions leaf size schema answer place target := by
  cases schema with
  | named ref =>
    rw [shape] at trail
    by_cases container : (context.definitions ref).isContainer = true
    · rw [if_pos container] at trail
      cases direct : ref.isObject context.definitions with
      | true => exact ⟨_, .object direct tag trail⟩
      | false => exact ⟨_, .name direct trail⟩
    · rw [if_neg container] at trail
      exact ⟨_, trail⟩
  | _ => exact ⟨_, trail⟩

/-- What the components of an intersection preserve holds of the last answer, which has the tags
of all answers by itself. -/
theorem chain_tagged {judges : Schema → Value → Verdict → Prop} (holds : Value → Prop)
    {components : List Schema} {tags : Tags}
    (chain : Validator.Chain judges components value tags (.accepted answer)) (start : holds value)
    (known : ∀ schema ∈ tags, value.hasTag schema = true)
    (kept : ∀ component ∈ components, ∀ item answer, holds item →
      judges component item (.accepted answer) → holds answer ∧ item.Grows answer) :
    ∃ last tags, holds last ∧ (∀ schema ∈ tags, last.hasTag schema = true) ∧
      answer = last.withTags tags := by
  induction components generalizing value tags with
  | nil =>
    cases chain
    exact ⟨value, tags, start, known, rfl⟩
  | cons component rest ih =>
    cases chain with
    | @next _ _ _ first _ _ judged further =>
      obtain ⟨holds, grows⟩ := kept component (.head _) _ _ start judged
      refine ih further holds (fun schema member => ?_)
        (fun other member => kept other (.tail _ member))
      obtain old | new := (Tags.mem_merge _ _ _).mp member
      · exact grows.hasTag (known schema old)
      · exact (Tags.has_eq_true_iff _ _).mpr new

/-- An array is answered by an array that grows from it, with sources. -/
theorem items_sourced {content origin : Identity} {items answers : List Value} {tags : Tags}
    {node : Nat} {body : Schema} {least most : Option Nat}
    (object : leaf.isObject context.definitions = true)
    (shaped : context.shape schema = .array node body least most)
    (each : List.Forall₂ (fun item answer => item.Grows answer ∧
      Sourced context.definitions leaf [body] item answer) items answers) :
    (Value.array content items tags).Grows (.array origin answers (tags.merge [schema])) ∧
      Sourced context.definitions leaf [schema] (.array content items tags)
        (.array origin answers (tags.merge [schema])) := by
  have own : (Value.array origin answers (tags.merge [schema])).hasTag schema = true :=
    (Tags.has_eq_true_iff _ _).mpr ((Tags.mem_merge _ _ _).mpr (.inr (List.mem_singleton.mpr rfl)))
  refine ⟨.of_children rfl (fun other tag => ?_) (fun position child held there => ?_),
    fun place part found tag => ?_⟩
  · exact (Tags.has_eq_true_iff _ _).mpr ((Tags.mem_merge _ _ _).mpr
      (.inl ((Tags.has_eq_true_iff _ _).mp tag)))
  · cases position with
    | key key => cases held
    | index index =>
      obtain ⟨answer, found, grows, _⟩ := forall₂_getElem? each held
      exact ⟨answer, found, grows⟩
  · cases place with
    | nil =>
      cases found
      obtain old | new := (Tags.mem_merge _ _ _).mp ((Tags.has_eq_true_iff _ _).mp tag)
      · exact .inl ⟨_, rfl, (Tags.has_eq_true_iff _ _).mpr old⟩
      · -- the leaf is an object, so it does not judge as an array
        obtain rfl := List.mem_singleton.mp new
        obtain ⟨_, _, _, shaped'⟩ := shape_of_isObject object
        cases shaped'.symm.trans shaped
    | cons position rest =>
      rw [Value.at?] at found
      obtain ⟨child, held, inner⟩ := Option.bind_eq_some_iff.mp found
      cases position with
      | key key => cases held
      | index index =>
        obtain ⟨item, listed, _, sourced⟩ := forall₂_getElem?_right each held
        obtain ⟨old, at', tag'⟩ | ⟨_, member, size, target, trail⟩ := sourced rest part inner tag
        · refine .inl ⟨old, ?_, tag'⟩
          rw [Value.at?, Value.child?, listed]
          exact at'
        · obtain rfl := List.mem_singleton.mp member
          have there := Value.isUndefined_of_at? inner (Value.isUndefined_of_hasTag tag)
          have whole : Trail context.definitions leaf (size + 1) (context.shape schema)
              (.array origin answers (tags.merge [schema])) (.index index :: rest) target := by
            rw [shaped]
            exact .items held there trail
          obtain ⟨size, trail⟩ := trail_of_shape own whole
          exact .inr ⟨schema, List.mem_singleton.mpr rfl, size, target, trail⟩

/-- An object is answered by an object that grows from it, with sources. -/
theorem fields_sourced {judges : Schema → Value → Verdict → Prop} {content origin : Identity}
    {fields answers : Fields Value} {tags : Tags} {node : Nat}
    {properties : List (Property Schema)} {additional : Additional Schema}
    (shaped : context.shape schema = .object node properties additional)
    (names : (Property.names properties).Nodup)
    (keyed : (Value.object content fields tags).Throughout Value.Keyed)
    (each : ∀ body ∈ properties.map Property.body ++ additional.bodies, ∀ item answer,
      item.Throughout Value.Keyed → judges body item (.accepted answer) →
      item.Grows answer ∧ Sourced context.definitions leaf [body] item answer)
    (step : Validator.FieldsStep judges false false properties additional fields answers) :
    (Value.object content fields tags).Grows (.object origin answers (tags.insert schema)) ∧
      Sourced context.definitions leaf [schema] (.object content fields tags)
        (.object origin answers (tags.insert schema)) := by
  have own : (Value.object origin answers (tags.insert schema)).hasTag schema = true :=
    (Tags.has_eq_true_iff _ _).mpr ((Tags.mem_insert _ _ _).mpr (.inr rfl))
  have distinct : Fields.Distinct fields := keyed.here
  have distinct' : answers.Distinct := step.distinct names distinct
  refine ⟨.of_children rfl (fun other tag => ?_) (fun position child held there => ?_),
    fun place part found tag => ?_⟩
  · exact (Tags.has_eq_true_iff _ _).mpr ((Tags.mem_insert _ _ _).mpr
      (.inl ((Tags.has_eq_true_iff _ _).mp tag)))
  · cases position with
    | index index => cases held
    | key key =>
      have member := Fields.mem_of_get? held
      have found := Fields.lookup_of_mem distinct member
      have answered : key ∈ answers.keys := step.mem_keys_of_lookup (by rw [found]; exact there)
      obtain ⟨answer, inside⟩ := Fields.exists_mem_of_mem_keys answered
      refine ⟨answer, Fields.get?_of_mem distinct' inside, ?_⟩
      obtain ⟨item, source, _, ⟨_, rfl⟩ | ⟨body, listed, judged⟩⟩ := step.under_key inside
      · cases (Fields.lookup_of_mem distinct source).symm.trans found
        exact .refl _
      · cases (Fields.lookup_of_mem distinct source).symm.trans found
        exact (each body listed _ answer (keyed.field member) judged).1
  · cases place with
    | nil =>
      cases found
      obtain old | rfl := (Tags.mem_insert _ _ _).mp ((Tags.has_eq_true_iff _ _).mp tag)
      · exact .inl ⟨_, rfl, (Tags.has_eq_true_iff _ _).mpr old⟩
      · exact .inr ⟨_, List.mem_singleton.mpr rfl, 0, _, .leaf own⟩
    | cons position rest =>
      rw [Value.at?] at found
      obtain ⟨child, held, inner⟩ := Option.bind_eq_some_iff.mp found
      have there := Value.isUndefined_of_at? inner (Value.isUndefined_of_hasTag tag)
      have whole : ∀ size target, Trail context.definitions leaf size (context.shape schema)
          (.object origin answers (tags.insert schema)) (position :: rest) target →
          ∃ schema' ∈ [schema], ∃ size target, Trail context.definitions leaf size schema'
            (.object origin answers (tags.insert schema)) (position :: rest) target := by
        intro size target trail
        obtain ⟨size, trail⟩ := trail_of_shape own trail
        exact ⟨schema, List.mem_singleton.mpr rfl, size, target, trail⟩
      cases position with
      | index index => cases held
      | key key =>
        obtain ⟨property, listed, rfl, there', judged⟩ | ⟨item, inside, how⟩ :=
          step.origin (Fields.mem_of_get? held)
        · rw [Validator.readKey_false] at there' judged
          have member := Fields.mem_of_lookup there'
          obtain ⟨_, sourced⟩ := each property.body (additional.declared_mem listed) _ child
            (keyed.field member) judged
          obtain ⟨old, at', tag'⟩ | ⟨_, single, size, target, trail⟩ := sourced rest part inner tag
          · refine .inl ⟨old, ?_, tag'⟩
            rw [Value.at?, Value.child?, Fields.get?_of_mem distinct member]
            exact at'
          · cases List.mem_singleton.mp single
            refine .inr (whole (size + 1) target ?_)
            rw [shaped]
            exact .property listed held there trail
        · obtain ⟨source, untaken, _⟩ := Validator.mem_otherFields.mp inside
          have at' : (Value.object content fields tags).at? (.key key :: rest) = item.at? rest := by
            rw [Value.at?, Value.child?, Fields.get?_of_mem distinct source]
            rfl
          obtain ⟨_, rfl⟩ | ⟨body, rfl, judged⟩ := how
          · exact .inl ⟨part, at'.trans inner, tag⟩
          · obtain ⟨_, sourced⟩ := each body (Additional.each_mem properties rfl) item child
              (keyed.field source) judged
            obtain ⟨old, found', tag'⟩ | ⟨_, single, size, target, trail⟩ :=
              sourced rest part inner tag
            · exact .inl ⟨old, at'.trans found', tag'⟩
            · cases List.mem_singleton.mp single
              have undeclared : key ∉ Property.names properties := by
                rw [← Validator.isTaken_false, untaken]
                exact Bool.false_ne_true
              refine .inr (whole (size + 1) target ?_)
              rw [shaped]
              exact .additional undeclared held there trail

/-- Under strict options every answer grows from its value, and a tagged part of it is tagged in
the value or at the end of a trail. -/
theorem answer_sourced (strict : context.settings = .strict) (sound : context.Sound schema)
    (object : leaf.isObject context.definitions = true) (keyed : value.Throughout Value.Keyed)
    (judged : context.Judges schema value (.accepted answer)) :
    value.Grows answer ∧ Sourced context.definitions leaf [schema] value answer := by
  have faithful : context.settings.Faithful := strict ▸ Options.strict_faithful
  obtain ⟨verbatim, inward, lone, keep⟩ := faithful
  -- the induction shows that an answer is keyed as well
  revert keyed
  refine accepted_induction (motive := fun schema value answer =>
    value.Throughout Value.Keyed → value.Grows answer ∧
      Sourced context.definitions leaf [schema] value answer) ?_ sound sound judged
  intro schema value answer sound step keyed
  cases step with
  | leaf leaf judged =>
    obtain rfl | ⟨_, loose⟩ := leaf_answer leaf sound.here.knownFormats judged
    · exact ⟨.refl _, fun place part found tag => .inl ⟨part, found, tag⟩⟩
    · exact absurd verbatim loose
  | @items node items least most list answers place shape found count judged =>
    obtain ⟨content, tags, rfl⟩ := Validator.itemsOf?_eq_some lone found
    cases found
    refine items_sourced object shape (forall₂_imp_of_mem judged ?_)
    rintro item member answer ⟨_, _, sourced⟩
    exact sourced answer rfl (keyed.item member)
  | @fields node properties additional content fields answers tags place shape same judged =>
    subst same
    have names : (context.shape schema).DistinctNames :=
      (sound.reached (reaches_shape context schema)).here.distinctNames
    rw [shape] at names
    rw [inward, keep, Bool.false_and] at judged
    exact fields_sourced shape names keyed
      (fun body _ item answer keyed judged => judged.2.2 answer rfl keyed) judged
  | @union node choices _ shape judged =>
    subst shape
    obtain ⟨choice, member, _, _, sourced⟩ := judged.accepted
    obtain ⟨grows, sources⟩ := sourced answer rfl keyed
    refine ⟨grows, sources.imp (fun schema single size place target trail => ?_)⟩
    cases List.mem_singleton.mp single
    exact .option member trail
  | @intersection node components _ shape chain =>
    subst shape
    obtain ⟨last, tags, ⟨_, grows, sources⟩, known, rfl⟩ :=
      chain_tagged (fun item => item.Throughout Value.Keyed ∧ value.Grows item ∧
        Sourced context.definitions leaf components value item) chain
        ⟨keyed, .refl value, .refl value⟩ (by simp)
        (fun component member item answer started judged => by
          obtain ⟨keyed, before, sources⟩ := started
          obtain ⟨inner, judged, sourced⟩ := judged
          obtain ⟨grows, further⟩ := sourced answer rfl keyed
          have restates := answer_restates strict inner keyed judged
          exact ⟨⟨restates.keyed, before.trans grows, sources.trans member further grows⟩, grows⟩)
    refine ⟨grows.withTags tags, Sourced.imp (sources.withTags (known _))
      (fun schema listed size place target trail => .component listed trail)⟩
  | @named ref inner verdict shape other judged tagged =>
    subst shape
    obtain ⟨first, rfl, rfl⟩ := accepted_of_map tagged
    obtain ⟨grows, sources⟩ := judged.2.2 first rfl keyed
    have apart : ref.isObject context.definitions = false := by
      cases direct : ref.isObject context.definitions with
      | false => rfl
      | true =>
        obtain ⟨_, _, _, found⟩ := NamedRef.isObject_iff.mp direct
        rw [found] at other
        cases other
    refine ⟨grows.withTags _, (sources.withTags (fun member => ?_)).imp
      (fun schema single size place target trail => ?_)⟩
    · cases List.mem_singleton.mp member
      cases object.symm.trans apart
    · cases List.mem_singleton.mp single
      exact .name apart trail

end Context

end Conform
