import Conform.Proofs.Traversal.Following
import Mathlib.Data.List.Duplicate

/-!
# What compiling answers

A schema path leads from a schema through names, properties, items and choices to the first
mention of the leaf. It comes back to a name that is not directly an object only after a
step into a property or an item. The path is forked when it takes an option of a real
choice after the last name on it that is directly an object.

The search cuts such paths at objects and at names that recur, and its plans may come back
to a name without a step in between. No path is lost: the search simulates each of them.
And none is invented: a part of a search without steps in between is a glide, and cutting
the loops out of a glide makes it part of a path. That does not hide a choice, because from
where a real choice can be met, every glide to a container goes through one.
-/

namespace Conform.Traversal

/-- A path from a schema to the first mention of the leaf, with the names that are not
directly objects and were entered since the last step, and whether it is forked so far; it
ends forked or not. -/
inductive SchemaPath (definitions : Definitions) (leaf : NamedRef) :
    (since : List NamedRef) → (forked : Bool) → Schema → (result : Bool) → Prop
  | mention {since : List NamedRef} {forked : Bool} :
      SchemaPath definitions leaf since forked (.named leaf) forked
  | object {since : List NamedRef} {forked result : Bool} {ref : NamedRef} (other : ref ≠ leaf)
      (direct : ref.isObject definitions = true)
      (further : SchemaPath definitions leaf since false (definitions ref) result) :
      SchemaPath definitions leaf since forked (.named ref) result
  | name {since : List NamedRef} {forked result : Bool} {ref : NamedRef} (other : ref ≠ leaf)
      (indirect : ref.isObject definitions = false) (new : ref ∉ since)
      (further : SchemaPath definitions leaf (ref :: since) forked (definitions ref) result) :
      SchemaPath definitions leaf since forked (.named ref) result
  | property {since : List NamedRef} {forked result : Bool} {node : Nat}
      {properties : List (Property Schema)} {additional : Additional Schema}
      {property : Property Schema} (member : property ∈ properties)
      (further : SchemaPath definitions leaf [] forked property.body result) :
      SchemaPath definitions leaf since forked (.object node properties additional) result
  | additional {since : List NamedRef} {forked result : Bool} {node : Nat}
      {properties : List (Property Schema)} {body : Schema}
      (further : SchemaPath definitions leaf [] forked body result) :
      SchemaPath definitions leaf since forked (.object node properties (.each body)) result
  | items {since : List NamedRef} {forked result : Bool} {node : Nat} {items : Schema}
      {least most : Option Nat}
      (further : SchemaPath definitions leaf [] forked items result) :
      SchemaPath definitions leaf since forked (.array node items least most) result
  | option {since : List NamedRef} {forked result : Bool} {node : Nat} {options : List Schema}
      {option : Schema} (member : option ∈ options)
      (further : SchemaPath definitions leaf since (forked || isFork definitions options) option
        result) :
      SchemaPath definitions leaf since forked (.union node options) result
  | component {since : List NamedRef} {forked result : Bool} {node : Nat}
      {components : List Schema} {component : Schema} (member : component ∈ components)
      (further : SchemaPath definitions leaf since (forked || isFork definitions components)
        component result) :
      SchemaPath definitions leaf since forked (.intersection node components) result

/-- A schema path from the definition of the root, in which the root has just been entered. -/
def PathBetween (definitions : Definitions) (root leaf : NamedRef) (result : Bool) : Prop :=
  SchemaPath definitions leaf [root] false (definitions root) result

/-! ## No path is lost -/

section

variable {definitions : Definitions} {root leaf : NamedRef}

/-- The end of a path is met: as a leaf that cannot be told apart, or by a route. -/
def Arrives (definitions : Definitions) (root leaf : NamedRef) (result : Bool) : Prop :=
  ∃ entry : Entry, entry.Explored definitions root leaf ∧
    if result = true ∧ leaf.isObject definitions = false then entry.Meets definitions leaf none
    else ∃ steps, entry.Meets definitions leaf (some ⟨steps, .leaf⟩)

variable {entry : Entry} {entered : Entered} {steps : List Step} {forked : Bool}
  {schema : Schema} {since : List NamedRef}

/-- The search meets the end of every path that it follows. -/
theorem Following.arrives {result : Bool}
    (path : SchemaPath definitions leaf since forked schema result)
    (following : Following definitions root leaf entry entered steps forked schema (· ∈ since)) :
    Arrives definitions root leaf result := by
  induction path generalizing entry entered steps with
  | @mention since forked =>
    refine ⟨entry, following.explored, ?_⟩
    split
    · rename_i unclear
      obtain ⟨rfl, indirect⟩ := unclear
      exact following.onward none (.unclear indirect)
    · rename_i told
      refine ⟨steps, following.onward _ (.leaf ?_)⟩
      cases forked with
      | false => exact .inl rfl
      | true => exact .inr (by simpa using told)
  | object other direct further ih =>
    have explored := following.explored_next (.tagged other direct) rfl
    exact ih (.start _ explored (fun indirect => absurd (direct.symm.trans indirect) (by decide)))
  | @name since forked result ref other indirect new further ih =>
    have listed : ref ∈ ref :: since := List.mem_cons_self
    obtain inside | meets := following.name other indirect new
      (fun _ member => List.mem_cons_of_mem ref member) listed
    · exact ih inside
    · exact ih (.start _ (following.explored_next meets rfl) (fun _ => listed))
  | property member further ih => exact ih (following.step (fun _ => .property member))
  | additional further ih => exact ih (following.step (fun _ => .additional))
  | items further ih => exact ih (following.step (fun _ => .items))
  | option member further ih =>
    exact ih (following.facet (fun _ => .option member) (fun _ => id))
  | component member further ih =>
    exact ih (following.facet (fun _ => .component member) (fun _ => id))

/-- The search meets the end of every path from the root. -/
theorem arrives_of_path {result : Bool} (path : PathBetween definitions root leaf result) :
    Arrives definitions root leaf result :=
  Following.arrives path
    (.start ⟨root, false⟩ .refl (fun _ => List.mem_singleton.mpr rfl))

end

/-! ## Glides -/

/-- A glide leads from a schema to another without a step and without an object on the way,
through names that are listed; it is marked when it takes an option of a real choice. -/
inductive Glide (definitions : Definitions) (leaf : NamedRef) :
    Schema → List NamedRef → (marked : Bool) → Schema → Prop
  | here {schema : Schema} : Glide definitions leaf schema [] false schema
  | name {ref : NamedRef} {names : List NamedRef} {marked : Bool} {target : Schema}
      (other : ref ≠ leaf) (indirect : ref.isObject definitions = false)
      (rest : Glide definitions leaf (definitions ref) names marked target) :
      Glide definitions leaf (.named ref) (ref :: names) marked target
  | option {node : Nat} {options : List Schema} {option : Schema} {names : List NamedRef}
      {marked : Bool} {target : Schema} (member : option ∈ options)
      (rest : Glide definitions leaf option names marked target) :
      Glide definitions leaf (.union node options) names (isFork definitions options || marked)
        target
  | component {node : Nat} {components : List Schema} {component : Schema}
      {names : List NamedRef} {marked : Bool} {target : Schema} (member : component ∈ components)
      (rest : Glide definitions leaf component names marked target) :
      Glide definitions leaf (.intersection node components) names
        (isFork definitions components || marked) target

/-- Some glide from the schema takes an option of a real choice. -/
def Forks (definitions : Definitions) (leaf : NamedRef) (schema : Schema) : Prop :=
  ∃ names target, Glide definitions leaf schema names true target

/-- Where a value is told by its tag or its parts: an array, an object, or a name of one. -/
def Settled (definitions : Definitions) : Schema → Prop
  | .array _ _ _ _ => True
  | .object _ _ _ => True
  | .named ref => ref.isObject definitions = true
  | _ => False

section

variable {definitions : Definitions} {leaf : NamedRef} {schema middle target : Schema}
  {names further : List NamedRef} {marked : Bool}

/-- One glide after another is a glide. -/
theorem Glide.append (first : Glide definitions leaf schema names marked middle)
    {later : Bool} (second : Glide definitions leaf middle further later target) :
    Glide definitions leaf schema (names ++ further) (marked || later) target := by
  induction first with
  | here => exact second
  | name other indirect rest ih => exact .name other indirect (ih second)
  | option member rest ih =>
    rw [Bool.or_assoc]
    exact .option member (ih second)
  | component member rest ih =>
    rw [Bool.or_assoc]
    exact .component member (ih second)

/-- A glide passes every name on it. -/
theorem Glide.split {ref : NamedRef}
    (glide : Glide definitions leaf schema (names ++ ref :: further) marked target) :
    ∃ before after, marked = (before || after) ∧
      Glide definitions leaf schema names before (.named ref) ∧
      Glide definitions leaf (definitions ref) further after target ∧
      ref ≠ leaf ∧ ref.isObject definitions = false := by
  generalize whole : names ++ ref :: further = all at glide
  induction glide generalizing names with
  | here => simp at whole
  | @name first rest marked target other indirect inside ih =>
    cases names with
    | nil =>
      cases whole
      exact ⟨false, marked, rfl, .here, inside, other, indirect⟩
    | cons head tail =>
      cases whole
      obtain ⟨before, after, same, front, back, apart⟩ := ih rfl
      exact ⟨before, after, same, .name other indirect front, back, apart⟩
  | option member rest ih =>
    obtain ⟨before, after, same, front, back, apart⟩ := ih whole
    exact ⟨_, after, by rw [same, Bool.or_assoc], .option member front, back, apart⟩
  | component member rest ih =>
    obtain ⟨before, after, same, front, back, apart⟩ := ih whole
    exact ⟨_, after, by rw [same, Bool.or_assoc], .component member front, back, apart⟩

/-- A schema forks when a glide leads from it to one that forks. -/
theorem Forks.of_glide (forks : Forks definitions leaf middle)
    (glide : Glide definitions leaf schema names marked middle) :
    Forks definitions leaf schema := by
  obtain ⟨further, target, onward⟩ := forks
  have whole := glide.append onward
  rw [Bool.or_true] at whole
  exact ⟨_, _, whole⟩

/-- The definition of a name that forks, forks. -/
theorem forks_definition {ref : NamedRef} (forks : Forks definitions leaf (.named ref)) :
    Forks definitions leaf (definitions ref) := by
  obtain ⟨names, target, glide⟩ := forks
  cases glide with
  | name other indirect rest => exact ⟨_, _, rest⟩

/-- A name is real when its definition is. -/
theorem isReal_name {ref : NamedRef} (real : isReal definitions (definitions ref) = true) :
    isReal definitions (.named ref) = true := by
  by_contra unreal
  have behind : Schema.resolve definitions (.named ref) =
      Schema.follow definitions 63 (definitions ref) := rfl
  rw [isReal, behind] at unreal
  have resolved : Schema.follow definitions 63 (definitions ref) = .null ∨
      Schema.follow definitions 63 (definitions ref) = .void := by
    split at unreal
    · exact .inl (by assumption)
    · exact .inr (by assumption)
    · exact absurd rfl unreal
  obtain null | void := resolved
  · rw [isReal, Schema.resolve, Schema.aliasLimit, Schema.follow_succ null (by simp)] at real
    cases real
  · rw [isReal, Schema.resolve, Schema.aliasLimit, Schema.follow_succ void (by simp)] at real
    cases real

/-- A schema that is settled is real. -/
theorem isReal_of_settled (settled : Settled definitions schema) :
    isReal definitions schema = true := by
  cases schema with
  | array node items least most => rfl
  | object node properties additional => rfl
  | named ref =>
    obtain ⟨node, properties, additional, found⟩ := NamedRef.isObject_iff.mp settled
    refine isReal_name ?_
    rw [found]
    rfl
  | _ => exact absurd settled id

/-- A schema is real when a glide from it takes a real choice or ends where values are told. -/
theorem Glide.isReal (glide : Glide definitions leaf schema names marked target)
    (telling : marked = true ∨ Settled definitions target) :
    Traversal.isReal definitions schema = true := by
  induction glide with
  | here =>
    obtain marked | settled := telling
    · cases marked
    · exact isReal_of_settled settled
  | name other indirect rest ih => exact isReal_name (ih telling)
  | option member rest ih => rfl
  | component member rest ih => rfl

/-- Of options that are not a real choice, at most one is real. -/
theorem eq_of_isFork_eq_false {options : List Schema} (alone : isFork definitions options = false)
    {option other : Schema} (member : option ∈ options) (member' : other ∈ options)
    (real : isReal definitions option = true) (real' : isReal definitions other = true) :
    option = other := by
  have few : (options.filter (isReal definitions)).length ≤ 1 := by
    simpa [isFork] using alone
  have inside : option ∈ options.filter (isReal definitions) := List.mem_filter.mpr ⟨member, real⟩
  have inside' : other ∈ options.filter (isReal definitions) :=
    List.mem_filter.mpr ⟨member', real'⟩
  have one : (options.filter (isReal definitions)).length = 1 :=
    Nat.le_antisymm few (List.length_pos_of_mem inside)
  obtain ⟨only, single⟩ := List.length_eq_one_iff.mp one
  rw [single, List.mem_singleton] at inside inside'
  exact inside.trans inside'.symm

/-- From a choice that is not real, a real one is met by way of some option. -/
theorem forks_choice {node : Nat} {options : List Schema}
    (alone : isFork definitions options = false)
    (forks : Forks definitions leaf (.union node options) ∨
      Forks definitions leaf (.intersection node options)) :
    ∃ option ∈ options, Forks definitions leaf option := by
  obtain ⟨names, target, glide⟩ | ⟨names, target, glide⟩ := forks
  all_goals
    generalize fork : true = flag at glide
    cases glide with
    | here => cases fork
    | _ member rest =>
      rw [alone, Bool.false_or] at fork
      subst fork
      exact ⟨_, member, _, _, rest⟩

/-- Where a real choice can be met, every glide to where values are told takes one. -/
theorem Glide.marked_of_forks (glide : Glide definitions leaf schema names marked target)
    (settled : Settled definitions target) (forks : Forks definitions leaf schema) :
    marked = true := by
  -- Of the options of a choice that is not real, both glides take the only one that is.
  have same : ∀ {options : List Schema} {option : Schema} {names : List NamedRef} {marked : Bool},
      isFork definitions options = false → option ∈ options →
      Glide definitions leaf option names marked target →
      (∃ other ∈ options, Forks definitions leaf other) → Forks definitions leaf option := by
    rintro options option names marked alone member rest ⟨other, member', forks⟩
    obtain ⟨further, end', rest'⟩ := forks
    obtain rfl := eq_of_isFork_eq_false alone member member' (rest.isReal (.inr settled))
      (rest'.isReal (.inl rfl))
    exact ⟨further, end', rest'⟩
  induction glide with
  | here =>
    obtain ⟨names, target, glide⟩ := forks
    generalize fork : true = flag at glide
    cases glide with
    | here => cases fork
    | name other indirect rest => exact absurd (indirect.symm.trans settled) (by decide)
    | option member rest => exact absurd settled id
    | component member rest => exact absurd settled id
  | name other indirect rest ih => exact ih settled (forks_definition forks) same
  | @option node options option names marked target member rest ih =>
    cases alone : isFork definitions options with
    | true => rfl
    | false => exact ih settled (same alone member rest (forks_choice alone (.inl forks))) same
  | @component node options option names marked target member rest ih =>
    cases alone : isFork definitions options with
    | true => rfl
    | false => exact ih settled (same alone member rest (forks_choice alone (.inr forks))) same

/-- A glide over distinct names is part of a path. -/
theorem Glide.path (glide : Glide definitions leaf schema names marked target)
    {since : List NamedRef} {forked result : Bool} (distinct : (names ++ since).Nodup)
    (path : SchemaPath definitions leaf (names.reverse ++ since) (forked || marked) target result) :
    SchemaPath definitions leaf since forked schema result := by
  induction glide generalizing since forked with
  | here => simpa using path
  | @name ref names marked target other indirect rest ih =>
    rw [List.cons_append, List.nodup_cons] at distinct
    have new : ref ∉ since := fun member => distinct.1 (List.mem_append_right _ member)
    refine .name other indirect new (ih ?_ ?_)
    · exact List.nodup_middle.mpr (List.nodup_cons.mpr distinct)
    · simpa using path
  | option member rest ih =>
    rw [← Bool.or_assoc] at path
    exact .option member (ih distinct path)
  | component member rest ih =>
    rw [← Bool.or_assoc] at path
    exact .component member (ih distinct path)

/-- The loops of a glide can be cut out. What is cut is not marked when no real choice can be
met from a name that comes twice. -/
theorem Glide.cut {forked : Bool} (glide : Glide definitions leaf schema names marked target)
    (calm : forked = false → ∀ ref, names.Duplicate ref →
      ¬ Forks definitions leaf (definitions ref)) :
    ∃ fewer marked', Glide definitions leaf schema fewer marked' target ∧ fewer.Nodup ∧
      fewer ⊆ names ∧ (forked || marked') = (forked || marked) := by
  induction glide with
  | here => exact ⟨[], false, .here, List.nodup_nil, List.nil_subset _, rfl⟩
  | @name ref names marked target other indirect rest ih =>
    obtain ⟨fewer, marked', short, distinct, inside, same⟩ :=
      ih (fun clear ref twice => calm clear ref (.cons_duplicate twice))
    by_cases again : ref ∈ fewer
    · obtain ⟨before, after, rfl⟩ := List.append_of_mem again
      obtain ⟨cut, kept, rfl, loop, back, _⟩ := short.split
      refine ⟨ref :: after, kept, .name other indirect back,
        distinct.sublist (List.sublist_append_right _ _), ?_, ?_⟩
      · exact List.cons_subset_cons _ (fun name member =>
          inside (List.mem_append_right _ (List.mem_cons_of_mem _ member)))
      · rw [← same]
        cases forked with
        | true => rfl
        | false =>
          have twice : (ref :: names).Duplicate ref := .cons_mem (inside again)
          cases cut with
          | false => rfl
          | true => exact absurd ⟨_, _, loop⟩ (calm rfl ref twice)
    · exact ⟨ref :: fewer, marked', .name other indirect short,
        List.nodup_cons.mpr ⟨again, distinct⟩, List.cons_subset_cons _ inside, same⟩
  | option member rest ih =>
    obtain ⟨fewer, marked', short, distinct, inside, same⟩ := ih calm
    refine ⟨fewer, _, .option member short, distinct, inside, ?_⟩
    rw [Bool.or_left_comm, same, Bool.or_left_comm]
  | component member rest ih =>
    obtain ⟨fewer, marked', short, distinct, inside, same⟩ := ih calm
    refine ⟨fewer, _, .component member short, distinct, inside, ?_⟩
    rw [Bool.or_left_comm, same, Bool.or_left_comm]

end

/-! ## No path is invented -/

/-- What leads to where a search stands: a path up to `origin`, just after its last step; a glide
over the names `before` the plan started, to `middle`; and a glide over the names `since`. -/
structure Trace where
  origin : Schema
  /-- Whether the path is forked at the origin. -/
  start : Bool
  before : List NamedRef
  early : Bool
  middle : Schema
  since : List NamedRef
  late : Bool

/-- A trace leads to where the search stands. A plan starts at most once without a step in
between, and then from a name that no real choice can be met from, unless the path is forked
anyway. The same holds of the names that were entered before the last step. -/
structure Trace.Behind (definitions : Definitions) (root leaf : NamedRef) (trace : Trace)
    (entered : Entered) (steps : List Step) (forked : Bool) (schema : Schema) : Prop where
  path : ∀ result, SchemaPath definitions leaf [] trace.start trace.origin result →
    PathBetween definitions root leaf result
  first : Glide definitions leaf trace.origin trace.before trace.early trace.middle
  second : Glide definitions leaf trace.middle trace.since trace.late schema
  flag : forked = (trace.start || (trace.early || trace.late))
  distinctBefore : trace.before.Nodup
  distinctSince : trace.since.Nodup
  apart : steps ≠ [] → trace.before = []
  calm : trace.start = false → trace.before = [] ∨ ¬ Forks definitions leaf trace.middle
  inside : ∀ ref ∈ trace.since, ref ∈ entered.map Prod.fst
  older : ∀ ref depth, (ref, depth) ∈ entered → ref.isObject definitions = false →
    (depth = steps.length ∧ ref ∈ trace.since) ∨
      (depth < steps.length ∧ (trace.start = false → ¬ Forks definitions leaf (definitions ref)))

section

variable {definitions : Definitions} {root leaf : NamedRef} {trace : Trace} {entered : Entered}
  {steps : List Step} {forked : Bool} {schema : Schema}

/-- What a name of an object stands for does not depend on the names entered before. -/
theorem SchemaPath.of_object {ref : NamedRef} (direct : ref.isObject definitions = true)
    {since later : List NamedRef} {result : Bool}
    (path : SchemaPath definitions leaf since forked (definitions ref) result) :
    SchemaPath definitions leaf later forked (definitions ref) result := by
  obtain ⟨node, properties, additional, found⟩ := NamedRef.isObject_iff.mp direct
  rw [found] at path ⊢
  cases path with
  | property member further => exact .property member further
  | additional further => exact .additional further

/-- What goes on from where the search stands, whatever names were entered since the last step,
is the end of a path from the root. -/
theorem Trace.Behind.close (behind : trace.Behind definitions root leaf entered steps forked schema)
    {result : Bool} (onward : ∀ since, SchemaPath definitions leaf since forked schema result) :
    PathBetween definitions root leaf result := by
  have calm : trace.start = false → ∀ ref, (trace.before ++ trace.since).Duplicate ref →
      ¬ Forks definitions leaf (definitions ref) := by
    intro clear ref twice forks
    -- A name that comes twice comes once before the plan started and once since then.
    have both : ref ∈ trace.before ∧ ref ∈ trace.since := by
      rw [List.duplicate_iff_two_le_count, List.count_append] at twice
      have once := List.nodup_iff_count_le_one.mp behind.distinctBefore ref
      have once' := List.nodup_iff_count_le_one.mp behind.distinctSince ref
      exact ⟨List.count_pos_iff.mp (by omega), List.count_pos_iff.mp (by omega)⟩
    obtain empty | calm := behind.calm clear
    · rw [empty] at both
      cases both.1
    · obtain ⟨front, back, split⟩ := List.append_of_mem both.2
      have second := behind.second
      rw [split] at second
      obtain ⟨_, _, _, passed, _, other, indirect⟩ := second.split
      refine calm (Forks.of_glide ?_ passed)
      obtain ⟨names, target, glide⟩ := forks
      exact ⟨ref :: names, target, .name other indirect glide⟩
  obtain ⟨fewer, marked, short, distinct, _, same⟩ := (behind.first.append behind.second).cut calm
  refine behind.path result (short.path (by simpa using distinct) ?_)
  rw [same, ← behind.flag]
  exact onward _

/-- A search stands at the end of some trace. -/
def Traced (definitions : Definitions) (root leaf : NamedRef) (entered : Entered)
    (steps : List Step) (forked : Bool) (schema : Schema) : Prop :=
  ∃ trace : Trace, trace.Behind definitions root leaf entered steps forked schema

/-- After a step, or where a plan starts at an object, a trace starts anew. -/
theorem traced_anew
    (path : ∀ result, SchemaPath definitions leaf [] forked schema result →
      PathBetween definitions root leaf result)
    (older : ∀ ref depth, (ref, depth) ∈ entered → ref.isObject definitions = false →
      depth < steps.length ∧ (forked = false → ¬ Forks definitions leaf (definitions ref))) :
    Traced definitions root leaf entered steps forked schema :=
  ⟨⟨schema, forked, [], false, schema, [], false⟩,
    { path := path
      first := .here
      second := .here
      flag := by simp
      distinctBefore := List.nodup_nil
      distinctSince := List.nodup_nil
      apart := fun _ => rfl
      calm := fun _ => .inl rfl
      inside := fun _ member => (nomatch member)
      older := fun ref depth member indirect => .inr (older ref depth member indirect) }⟩

/-- A step from a container leads on. -/
theorem Traced.step (traced : Traced definitions root leaf entered steps forked schema)
    (settled : Settled definitions schema) {inner : Schema} {step : Step}
    (onward : ∀ since result, SchemaPath definitions leaf [] forked inner result →
      SchemaPath definitions leaf since forked schema result) :
    Traced definitions root leaf entered (steps ++ [step]) forked inner := by
  obtain ⟨trace, behind⟩ := traced
  refine traced_anew (fun result further => behind.close (fun since => onward since result further))
    (fun ref depth member indirect => ?_)
  rw [List.length_append, List.length_singleton]
  obtain ⟨here, listed⟩ | ⟨earlier, calm⟩ := behind.older ref depth member indirect
  · refine ⟨by omega, fun clear forks => ?_⟩
    obtain ⟨front, back, split⟩ := List.append_of_mem listed
    have second := behind.second
    rw [split] at second
    obtain ⟨before, after, late, _, glide, _⟩ := second.split
    have marked := glide.marked_of_forks settled forks
    rw [behind.flag, late, marked] at clear
    simp at clear
  · refine ⟨by omega, fun clear => calm ?_⟩
    rw [behind.flag, Bool.or_eq_false_iff] at clear
    exact clear.1

/-- A glide over no name leads on. -/
theorem Traced.facet (traced : Traced definitions root leaf entered steps forked schema)
    {inner : Schema} {marked : Bool} (glide : Glide definitions leaf schema [] marked inner) :
    Traced definitions root leaf entered steps (forked || marked) inner := by
  obtain ⟨trace, behind⟩ := traced
  refine ⟨{ trace with late := trace.late || marked }, { behind with second := ?_, flag := ?_ }⟩
  · have whole := behind.second.append glide
    rwa [List.append_nil] at whole
  · rw [behind.flag]
    simp only [Bool.or_assoc]

/-- The definition of a name that is entered leads on. -/
theorem Traced.name {ref : NamedRef}
    (traced : Traced definitions root leaf entered steps forked (.named ref))
    (enters : Enters definitions leaf entered ref) :
    Traced definitions root leaf ((ref, steps.length) :: entered) steps forked
      (definitions ref) := by
  obtain ⟨trace, behind⟩ := traced
  refine ⟨{ trace with since := trace.since ++ [ref] },
    { behind with
      second := ?_
      distinctSince := ?_
      inside := fun other member => ?_
      older := fun other depth member indirect => ?_ }⟩
  · have whole := behind.second.append (.name enters.1 enters.2.1 .here)
    rwa [Bool.or_false] at whole
  · have new : ref ∉ trace.since :=
      fun member => lookup_ne_none_of_mem (behind.inside ref member) enters.2.2
    refine List.nodup_append.mpr ⟨behind.distinctSince, List.pairwise_singleton _ ref, ?_⟩
    rintro name member _ same rfl
    exact new (List.mem_singleton.mp same ▸ member)
  · obtain old | new := List.mem_append.mp member
    · exact List.mem_cons_of_mem _ (behind.inside other old)
    · obtain rfl := List.mem_singleton.mp new
      exact List.mem_cons_self
  · obtain new | old := List.mem_cons.mp member
    · cases new
      exact .inl ⟨rfl, List.mem_append_right _ (List.mem_singleton.mpr rfl)⟩
    · obtain ⟨here, listed⟩ | earlier := behind.older other depth old indirect
      · exact .inl ⟨here, List.mem_append_left _ listed⟩
      · exact .inr earlier

/-- Where a plan starts at a name that recurs, the trace goes on. -/
theorem Traced.shaped {ref : NamedRef} {depth : Nat}
    (traced : Traced definitions root leaf entered steps forked (.named ref)) (other : ref ≠ leaf)
    (indirect : ref.isObject definitions = false) (found : entered.lookup ref = some depth)
    (deeper : depth < steps.length) :
    Traced definitions root leaf [(ref, 0)] [] forked (definitions ref) := by
  obtain ⟨trace, behind⟩ := traced
  have member : (ref, depth) ∈ entered := by
    obtain ⟨front, back, rfl, _⟩ := List.lookup_eq_some_iff.mp found
    exact List.mem_append_right _ List.mem_cons_self
  have stepped : steps ≠ [] := List.ne_nil_of_length_pos (Nat.zero_lt_of_lt deeper)
  have empty : trace.before = [] := behind.apart stepped
  refine ⟨⟨trace.origin, trace.start, trace.since, trace.early || trace.late, .named ref, [ref],
      false⟩,
    { path := behind.path
      first := ?_
      second := .name other indirect .here
      flag := ?_
      distinctBefore := behind.distinctSince
      distinctSince := List.pairwise_singleton _ ref
      apart := fun impossible => absurd rfl impossible
      calm := fun clear => .inr (fun forks => ?_)
      inside := fun other member => member
      older := fun other depth member _ => ?_ }⟩
  · have whole := behind.first.append behind.second
    rwa [empty, List.nil_append] at whole
  · rw [behind.flag, Bool.or_false]
  · obtain ⟨here, _⟩ | ⟨_, calm⟩ := behind.older ref depth member indirect
    · omega
    · exact calm clear (forks_definition forks)
  · cases List.mem_singleton.mp member
    exact .inl ⟨rfl, List.mem_singleton.mpr rfl⟩

/-- Where a plan starts at an object, a trace starts anew. -/
theorem Traced.tagged {ref : NamedRef}
    (traced : Traced definitions root leaf entered steps forked (.named ref)) (other : ref ≠ leaf)
    (direct : ref.isObject definitions = true) :
    Traced definitions root leaf [(ref, 0)] [] false (definitions ref) := by
  obtain ⟨trace, behind⟩ := traced
  refine traced_anew (fun result further => behind.close (fun since => ?_))
    (fun ref depth member indirect => ?_)
  · exact .object other direct (further.of_object direct)
  · cases List.mem_singleton.mp member
    exact absurd (direct.symm.trans indirect) (by decide)

/-- What justifies a result of a search: a path for a leaf, a trace for a plan. -/
def Justified (definitions : Definitions) (root leaf : NamedRef) : Option Route → Prop
  | none => leaf.isObject definitions = false ∧ PathBetween definitions root leaf true
  | some ⟨_, .leaf⟩ => ∃ forked, PathBetween definitions root leaf forked
  | some ⟨_, .tagged ref⟩ => Traced definitions root leaf [(ref, 0)] [] false (definitions ref)
  | some ⟨_, .shaped ref forked⟩ =>
    Traced definitions root leaf [(ref, 0)] [] forked (definitions ref)

/-- What a search meets at the end of a trace is justified. -/
theorem Traced.meets {result : Option Route}
    (meets : Meets definitions leaf entered steps forked schema result)
    (traced : Traced definitions root leaf entered steps forked schema) :
    Justified definitions root leaf result := by
  induction meets with
  | property member inside ih =>
    exact ih (traced.step trivial (fun _ _ further => .property member further))
  | additional inside ih =>
    exact ih (traced.step trivial (fun _ _ further => .additional further))
  | items inside ih => exact ih (traced.step trivial (fun _ _ further => .items further))
  | option member inside ih =>
    have further := traced.facet (.option member .here)
    rw [Bool.or_false] at further
    exact ih further
  | component member inside ih =>
    have further := traced.facet (.component member .here)
    rw [Bool.or_false] at further
    exact ih further
  | name enters inside ih => exact ih (traced.name enters)
  | leaf told =>
    obtain ⟨trace, behind⟩ := traced
    exact ⟨_, behind.close (fun _ => .mention)⟩
  | unclear indirect =>
    obtain ⟨trace, behind⟩ := traced
    exact ⟨indirect, behind.close (fun _ => .mention)⟩
  | tagged other object => exact traced.tagged other object
  | shaped other indirect inside deeper => exact traced.shaped other indirect inside deeper

/-- A trace leads to where the search from the root starts. -/
theorem traced_root (other : root ≠ leaf) :
    Traced definitions root leaf [(root, 0)] [] false (definitions root) := by
  cases direct : root.isObject definitions with
  | true =>
    refine traced_anew (fun result path => path.of_object direct)
      (fun ref depth member indirect => ?_)
    cases List.mem_singleton.mp member
    exact absurd (direct.symm.trans indirect) (by decide)
  | false =>
    refine ⟨⟨.named root, false, [], false, .named root, [root], false⟩,
      { path := fun result path => ?_
        first := .here
        second := .name other direct .here
        flag := rfl
        distinctBefore := List.nodup_nil
        distinctSince := List.pairwise_singleton _ root
        apart := fun _ => rfl
        calm := fun _ => .inl rfl
        inside := fun ref member => member
        older := fun ref depth member _ => ?_ }⟩
    · cases path with
      | mention => exact absurd rfl other
      | object _ object _ => exact absurd (object.symm.trans direct) (by decide)
      | name _ _ _ further => exact further
    · cases List.mem_singleton.mp member
      exact .inl ⟨rfl, List.mem_singleton.mpr rfl⟩

/-- A trace leads to where each plan starts. -/
theorem Entry.Explored.traced {entry : Entry} (explored : entry.Explored definitions root leaf)
    (other : root ≠ leaf) :
    Traced definitions root leaf [(entry.ref, 0)] [] entry.ambiguous (definitions entry.ref) := by
  induction explored with
  | refl => exact traced_root other
  | tail _ leads ih =>
    obtain ⟨⟨steps, goal⟩, meets, continues⟩ := leads
    have further := ih.meets meets
    cases goal with
    | leaf => cases continues
    | tagged ref =>
      cases continues
      exact further
    | shaped ref ambiguous =>
      cases continues
      exact further

/-! ## The verdict -/

/-- A plan meets a leaf that cannot be told apart exactly when the leaf is not directly an
object and some path to it is forked. -/
theorem meets_unclear_iff (other : root ≠ leaf) :
    (∃ entry : Entry, entry.Explored definitions root leaf ∧ entry.Meets definitions leaf none) ↔
      leaf.isObject definitions = false ∧ PathBetween definitions root leaf true := by
  constructor
  · rintro ⟨entry, explored, meets⟩
    exact (explored.traced other).meets meets
  · rintro ⟨indirect, path⟩
    obtain ⟨entry, explored, arrives⟩ := arrives_of_path path
    rw [if_pos ⟨rfl, indirect⟩] at arrives
    exact ⟨entry, explored, arrives⟩

/-- Unless the leaf cannot be told apart, a plan meets it exactly when there is a path to it. -/
theorem meets_leaf_iff (other : root ≠ leaf)
    (clear : ¬ (leaf.isObject definitions = false ∧ PathBetween definitions root leaf true)) :
    (∃ entry : Entry, entry.Explored definitions root leaf ∧
        ∃ steps, entry.Meets definitions leaf (some ⟨steps, .leaf⟩)) ↔
      ∃ forked, PathBetween definitions root leaf forked := by
  constructor
  · rintro ⟨entry, explored, steps, meets⟩
    exact (explored.traced other).meets meets
  · rintro ⟨forked, path⟩
    obtain ⟨entry, explored, arrives⟩ := arrives_of_path path
    rw [if_neg ?_] at arrives
    · exact ⟨entry, explored, arrives⟩
    · rintro ⟨rfl, indirect⟩
      exact clear ⟨indirect, path⟩

/-- Compiling between different names ends when the root reaches finitely many names. It refuses
an ambiguous traversal exactly when the leaf is not directly an object and some path to it is
forked, else an unreachable leaf exactly when there is no path, and else it succeeds. -/
theorem compile_verdict (definitions : Definitions) (root leaf : NamedRef) (names : Nat)
    (other : root ≠ leaf)
    (finite : ∃ known : List NamedRef, known.length ≤ names ∧
      Knows definitions known (.named root)) :
    Builds definitions leaf [(root, none)] [⟨root, false⟩] []
        (buildPlans definitions leaf names (2 * names + 1) [(root, none)] [⟨root, false⟩] []) ∧
      ((∃ path, between definitions names root leaf =
          .error (.ambiguousTraversal root.name leaf.name path)) ↔
        leaf.isObject definitions = false ∧ PathBetween definitions root leaf true) ∧
      (between definitions names root leaf = .error (.unreachableLeaf root.name leaf.name) ↔
        ¬ (leaf.isObject definitions = false ∧ PathBetween definitions root leaf true) ∧
          ¬ ∃ forked, PathBetween definitions root leaf forked) ∧
      ((∃ traversal, between definitions names root leaf = .ok traversal) ↔
        ¬ (leaf.isObject definitions = false ∧ PathBetween definitions root leaf true) ∧
          ∃ forked, PathBetween definitions root leaf forked) := by
  obtain ⟨known, bounded, knows⟩ := finite
  refine ⟨builds_plans bounded knows, ?_⟩
  have answers := between_answers bounded knows other
  rw [meets_unclear_iff other] at answers
  obtain ⟨unclear, path, answer⟩ | ⟨clear, ⟨unmet, answer⟩ | ⟨met, traversal, answer⟩⟩ := answers
  · simp [answer, unclear]
  · rw [meets_leaf_iff other clear] at unmet
    simp [answer, clear, unmet]
  · rw [meets_leaf_iff other clear] at met
    simp [answer, clear, met]

end

end Conform.Traversal

namespace Conform.Shapes

open Traversal

/-- There is a way from shapes to circles, which are an option of two. -/
theorem circles_found :
    ∃ traversal, between definitions 3 ⟨0, "Shape"⟩ ⟨1, "Circle"⟩ = .ok traversal := by
  have direct : NamedRef.isObject definitions ⟨1, "Circle"⟩ = true := rfl
  have path : PathBetween definitions ⟨0, "Shape"⟩ ⟨1, "Circle"⟩ true :=
    .option (.head _) .mention
  have verdict := compile_verdict definitions ⟨0, "Shape"⟩ ⟨1, "Circle"⟩ 3 (by decide)
    ⟨names, Nat.le_refl 3, knows⟩
  exact verdict.2.2.2.mpr ⟨fun unclear => by simp [direct] at unclear, true, path⟩

end Conform.Shapes
