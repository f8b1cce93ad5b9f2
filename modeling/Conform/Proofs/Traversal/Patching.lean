import Conform.Proofs.Attempt.Answers
import Conform.Proofs.Traversal.Visits

/-!
# Patching a value

Each route walks what the routes before it left. What a run has made so far is the input
with answers at some of the positions touched, and the containers around them made anew. A
run revises such a value when it calls the transform at the visits of the input that are
still to come, in order, each with what the input holds there, and leaves answers at their
positions.

The leaves still to come are apart from each other and from what is touched: none lies at or
above another. So no leaf is changed before it is called, and from a position that is touched
no leaf of the input is still to come. The parts of containers are revised one after the
other, each with more positions touched.
-/

namespace Conform.Traversal

/-- Neither of two positions is at or above the other. -/
def Apart (first second : List Value.Position) : Prop :=
  ¬ first <+: second ∧ ¬ second <+: first

instance (first second : List Value.Position) : Decidable (Apart first second) :=
  inferInstanceAs (Decidable (¬ _ ∧ ¬ _))

/-- A value with answers at some of the positions touched. The containers around them may be made
anew, and nothing else differs. -/
inductive Patched (calm : Value → Value → Prop) (touched : List (List Value.Position)) :
    List Value.Position → Value → Value → Prop
  | same {position : List Value.Position} {value : Value} :
      Patched calm touched position value value
  | answer {position : List Value.Position} {value answer : Value} (member : position ∈ touched)
      (quiet : calm value answer) : Patched calm touched position value answer
  | array {position : List Value.Position} {content content' : Identity}
      {items items' : List Value} {tags : Tags} (below : ∃ place ∈ touched, position <+: place)
      (length : items'.length = items.length)
      (parts : ∀ index item item', items[index]? = some item → items'[index]? = some item' →
        Patched calm touched (position ++ [.index index]) item item') :
      Patched calm touched position (.array content items tags) (.array content' items' tags)
  | object {position : List Value.Position} {content content' : Identity}
      {fields fields' : Fields Value} {tags : Tags}
      (below : ∃ place ∈ touched, position <+: place) (keys : fields'.keys = fields.keys)
      (parts : ∀ key, Patched calm touched (position ++ [.key key]) (Fields.lookup key fields)
        (Fields.lookup key fields'))
      (absent : ∀ key, (Fields.lookup key fields).isUndefined = true →
        Fields.lookup key fields' = Fields.lookup key fields) :
      Patched calm touched position (.object content fields tags) (.object content' fields' tags)

/-- Fields that are patched under their keys. Those without a value stay. -/
structure PatchedFields (calm : Value → Value → Prop) (touched : List (List Value.Position))
    (position : List Value.Position) (fields fields' : Fields Value) : Prop where
  keys : Fields.keys fields' = Fields.keys fields
  parts : ∀ key, Patched calm touched (position ++ [.key key]) (Fields.lookup key fields)
    (Fields.lookup key fields')
  absent : ∀ key, (Fields.lookup key fields).isUndefined = true →
    Fields.lookup key fields' = Fields.lookup key fields

section

variable {calm : Value → Value → Prop} {touched more : List (List Value.Position)}
  {position : List Value.Position} {value patched : Value}

/-- What is patched at some positions is patched at more of them. -/
theorem Patched.mono (whole : Patched calm touched position value patched)
    (subset : ∀ place ∈ touched, place ∈ more) : Patched calm more position value patched := by
  induction whole with
  | same => exact .same
  | answer member quiet => exact .answer (subset _ member) quiet
  | array below length parts ih =>
    obtain ⟨place, member, inside⟩ := below
    exact .array ⟨place, subset _ member, inside⟩ length ih
  | object below keys parts absent ih =>
    obtain ⟨place, member, inside⟩ := below
    exact .object ⟨place, subset _ member, inside⟩ keys ih absent

/-- Where nothing is touched at or below a position, nothing differs. -/
theorem Patched.eq_of_untouched (whole : Patched calm touched position value patched)
    (untouched : ∀ place ∈ touched, ¬ position <+: place) : patched = value := by
  cases whole with
  | same => rfl
  | answer member quiet => exact absurd List.prefix_rfl (untouched _ member)
  | array below length parts =>
    obtain ⟨place, member, inside⟩ := below
    exact absurd inside (untouched _ member)
  | object below keys parts absent =>
    obtain ⟨place, member, inside⟩ := below
    exact absurd inside (untouched _ member)

/-- What becomes of an array: an answer, or an array of the same length with the same tags. -/
theorem Patched.array_inv {content : Identity} {items : List Value} {tags : Tags}
    (whole : Patched calm touched position (.array content items tags) patched) :
    (position ∈ touched ∧ calm (.array content items tags) patched) ∨
      ∃ content' items', patched = .array content' items' tags ∧ items'.length = items.length ∧
        ∀ index item item', items[index]? = some item → items'[index]? = some item' →
          Patched calm touched (position ++ [.index index]) item item' := by
  cases whole with
  | same =>
    refine .inr ⟨content, items, rfl, rfl, fun index item item' held held' => ?_⟩
    cases held.symm.trans held'
    exact .same
  | answer member quiet => exact .inl ⟨member, quiet⟩
  | array below length parts => exact .inr ⟨_, _, rfl, length, parts⟩

/-- What becomes of an object: an answer, or an object of the same keys with the same tags. -/
theorem Patched.object_inv {content : Identity} {fields : Fields Value} {tags : Tags}
    (whole : Patched calm touched position (.object content fields tags) patched) :
    (position ∈ touched ∧ calm (.object content fields tags) patched) ∨
      ∃ content' fields', patched = .object content' fields' tags ∧
        PatchedFields calm touched position fields fields' := by
  cases whole with
  | same => exact .inr ⟨content, fields, rfl, rfl, fun _ => .same, fun _ _ => rfl⟩
  | answer member quiet => exact .inl ⟨member, quiet⟩
  | object below keys parts absent => exact .inr ⟨_, _, rfl, keys, parts, absent⟩

/-- What is defined stays defined where it is not touched. -/
theorem Patched.touched_of_undefined (whole : Patched calm touched position value patched)
    (there : value.isUndefined = false) (gone : patched.isUndefined = true) :
    position ∈ touched := by
  cases whole with
  | same => exact absurd (there.symm.trans gone) (by decide)
  | answer member quiet => exact member
  | array below length parts => cases gone
  | object below keys parts absent => cases gone

end

/-! ## Fields one after the other -/

/-- The first field is looked up before the others. -/
theorem lookup_cons (key name : String) (child : Value) (fields : Fields Value) :
    Fields.lookup key ((name, child) :: fields) =
      if name = key then child else Fields.lookup key fields := by
  rw [lookup_eq, Fields.get?]
  split <;> rfl

/-- Nothing is found under a key that is not there. -/
theorem lookup_of_notMem {key : String} {fields : Fields Value} (absent : key ∉ fields.keys) :
    Fields.lookup key fields = .undefined := by
  rw [lookup_eq, Fields.get?_eq_none_iff.mpr absent]
  rfl

section

variable {calm : Value → Value → Prop} {touched more : List (List Value.Position)}
  {position : List Value.Position} {key : String} {child child' : Value}
  {fields fields' : Fields Value}

/-- Fields that are patched at some positions are patched at more of them. -/
theorem PatchedFields.mono (all : PatchedFields calm touched position fields fields')
    (subset : ∀ place ∈ touched, place ∈ more) :
    PatchedFields calm more position fields fields' :=
  { all with parts := fun key => (all.parts key).mono subset }

/-- The first of patched fields is patched, and stays when it has no value. -/
theorem PatchedFields.head
    (all : PatchedFields calm touched position ((key, child) :: fields)
      ((key, child') :: fields')) :
    Patched calm touched (position ++ [.key key]) child child' ∧
      (child.isUndefined = true → child' = child) := by
  have part := all.parts key
  have stays := all.absent key
  simp only [lookup_cons, ↓reduceIte] at part stays
  exact ⟨part, stays⟩

/-- The fields after the first are patched, when the first key is new. -/
theorem PatchedFields.tail (new : key ∉ Fields.keys fields)
    (all : PatchedFields calm touched position ((key, child) :: fields)
      ((key, child') :: fields')) :
    PatchedFields calm touched position fields fields' := by
  have keys : Fields.keys fields' = Fields.keys fields := (List.cons.inj all.keys).2
  have new' : key ∉ Fields.keys fields' := fun listed => new (keys ▸ listed)
  refine ⟨keys, fun name => ?_, fun name gone => ?_⟩
  · by_cases same : key = name
    · subst same
      rw [lookup_of_notMem new, lookup_of_notMem new']
      exact .same
    · simpa only [lookup_cons, same, ↓reduceIte] using all.parts name
  · by_cases same : key = name
    · subst same
      rw [lookup_of_notMem new, lookup_of_notMem new']
    · have stays := all.absent name
      simp only [lookup_cons, same, ↓reduceIte] at stays
      exact stays gone

/-- A patched field before patched fields is one of them. -/
theorem PatchedFields.cons (first : Patched calm touched (position ++ [.key key]) child child')
    (stays : child.isUndefined = true → child' = child)
    (later : PatchedFields calm touched position fields fields') :
    PatchedFields calm touched position ((key, child) :: fields) ((key, child') :: fields') := by
  refine ⟨congrArg (key :: ·) later.keys, fun name => ?_, fun name => ?_⟩
  · by_cases same : key = name
    · subst same
      simpa only [lookup_cons, ↓reduceIte] using first
    · simpa only [lookup_cons, same, ↓reduceIte] using later.parts name
  · by_cases same : key = name
    · subst same
      simpa only [lookup_cons, ↓reduceIte] using stays
    · simpa only [lookup_cons, same, ↓reduceIte] using later.absent name

/-- Writing a field that is there patches it. -/
theorem PatchedFields.insert (all : PatchedFields calm touched position fields fields')
    (there : (Fields.lookup key fields').isUndefined = false)
    (part : Patched calm touched (position ++ [.key key]) (Fields.lookup key fields) child)
    (stays : (Fields.lookup key fields).isUndefined = false) :
    PatchedFields calm touched position fields (Fields.insert key child fields') := by
  have listed : key ∈ Fields.keys fields' :=
    List.mem_map_of_mem (Fields.mem_of_lookup there)
  refine ⟨?_, fun name => ?_, fun name gone => ?_⟩
  · rw [Fields.keys_insert, if_pos listed, all.keys]
  · by_cases same : name = key
    · subst same
      rwa [lookup_eq name (Fields.insert _ _ _), Fields.get?_insert_self]
    · rw [lookup_eq name (Fields.insert _ _ _), Fields.get?_insert_of_ne _ _ same, ← lookup_eq]
      exact all.parts name
  · by_cases same : name = key
    · subst same
      exact absurd (stays.symm.trans gone) (by decide)
    · rw [lookup_eq name (Fields.insert _ _ _), Fields.get?_insert_of_ne _ _ same, ← lookup_eq]
      exact all.absent name gone

end

/-! ## Leaves still to come -/

/-- Leaves still to come: apart from each other and from what is touched already, and with quiet
answers. -/
structure Free (calm : Value → Value → Prop) (transform : Transform)
    (touched : List (List Value.Position)) (leaves : Leaves) : Prop where
  distinct : (leaves.map Prod.fst).Pairwise Apart
  fresh : ∀ place ∈ touched, ∀ leaf ∈ leaves, Apart place leaf.1
  quiet : ∀ leaf ∈ leaves, ∀ calls, calm leaf.2 (transform calls leaf.1 leaf.2)

section

variable {calm : Value → Value → Prop} {transform : Transform}
  {touched : List (List Value.Position)} {leaves later : Leaves}
  {position : List Value.Position} {value patched : Value}

/-- The leaves that come first are free on their own. -/
theorem Free.left (free : Free calm transform touched (leaves ++ later)) :
    Free calm transform touched leaves where
  distinct := by
    have all := free.distinct
    rw [List.map_append, List.pairwise_append] at all
    exact all.1
  fresh place member leaf inside := free.fresh place member leaf (List.mem_append_left _ inside)
  quiet leaf inside := free.quiet leaf (List.mem_append_left _ inside)

/-- Once the first leaves are touched as well, the later ones are still to come. -/
theorem Free.right (free : Free calm transform touched (leaves ++ later)) :
    Free calm transform (touched ++ leaves.map Prod.fst) later where
  distinct := by
    have all := free.distinct
    rw [List.map_append, List.pairwise_append] at all
    exact all.2.1
  fresh place member leaf inside := by
    obtain old | new := List.mem_append.mp member
    · exact free.fresh place old leaf (List.mem_append_right _ inside)
    · have all := free.distinct
      rw [List.map_append, List.pairwise_append] at all
      exact all.2.2 place new leaf.1 (List.mem_map_of_mem inside)
  quiet leaf inside := free.quiet leaf (List.mem_append_right _ inside)

/-- At a position that is touched no leaf is still to come. -/
theorem Free.eq_nil_of_touched (free : Free calm transform touched (under position leaves))
    (member : position ∈ touched) : leaves = [] := by
  refine List.eq_nil_iff_forall_not_mem.mpr (fun leaf inside => ?_)
  have apart := free.fresh position member (position ++ leaf.1, leaf.2)
    (mem_under_iff.mpr ⟨leaf.1, inside, rfl⟩)
  exact apart.1 (List.prefix_append _ _)

/-- A leaf that is still to come is as it was. -/
theorem Free.eq_of_here (free : Free calm transform touched [(position, value)])
    (whole : Patched calm touched position value patched) : patched = value :=
  whole.eq_of_untouched (fun place member =>
    (free.fresh place member _ (List.mem_singleton.mpr rfl)).2)

end

/-! ## Runs that end alike -/

/-- Once enough plans may be inside each other, a run has one result for all transforms that
answer alike at the leaves. -/
def EndsIn {α : Type} (transform : Transform) (leaves : Leaves)
    (run : Nat → Transform → Except Stop α) (result : α) : Prop :=
  ∃ bound, ∀ fuel, bound ≤ fuel → ∀ other : Transform,
    (∀ leaf ∈ leaves, ∀ calls, other calls leaf.1 leaf.2 = transform calls leaf.1 leaf.2) →
    run fuel other = .ok result

section

variable {α β γ : Type} {transform : Transform} {leaves later : Leaves}

/-- Two runs that end alike for such transforms make a run that does. -/
theorem EndsIn.both {first : Nat → Transform → Except Stop α}
    {second : Nat → Transform → Except Stop β} {whole : Nat → Transform → Except Stop γ}
    {result : α} {result' : β} {final : γ} (ending : EndsIn transform leaves first result)
    (ending' : EndsIn transform later second result')
    (ends : ∀ fuel other, first fuel other = .ok result → second fuel other = .ok result' →
      whole fuel other = .ok final) :
    EndsIn transform (leaves ++ later) whole final := by
  obtain ⟨bound, reached⟩ := ending
  obtain ⟨bound', reached'⟩ := ending'
  refine ⟨max bound bound', fun fuel enough other alike => ?_⟩
  have ended := reached fuel (by omega) other
    (fun leaf member => alike leaf (List.mem_append_left _ member))
  have ended' := reached' fuel (by omega) other
    (fun leaf member => alike leaf (List.mem_append_right _ member))
  exact ends fuel other ended ended'

/-- What follows from the result of a run ends as the run does. -/
theorem EndsIn.imp {first : Nat → Transform → Except Stop α}
    {whole : Nat → Transform → Except Stop β} {result : α} {final : β}
    (ending : EndsIn transform leaves first result)
    (ends : ∀ fuel other, first fuel other = .ok result → whole fuel other = .ok final) :
    EndsIn transform leaves whole final := by
  obtain ⟨bound, reached⟩ := ending
  exact ⟨bound, fun fuel enough other alike =>
    ends fuel other (reached fuel enough other alike)⟩

/-- A run may begin with one more plan inside. -/
theorem EndsIn.of_succ {run : Nat → Transform → Except Stop α} {result : α}
    (ending : EndsIn transform leaves (fun fuel other => run (fuel + 1) other) result) :
    EndsIn transform leaves run result := by
  obtain ⟨bound, reached⟩ := ending
  refine ⟨bound + 1, fun fuel enough other alike => ?_⟩
  obtain ⟨less, rfl, within⟩ := exists_eq_add_of_add_le enough
  exact reached less within other alike

end

/-- A run calls the transform at the leaves, in order, with what they hold, and leaves the value
patched there. -/
def Revises (calm : Value → Value → Prop) (transform : Transform)
    (touched : List (List Value.Position)) (position : List Value.Position) (leaves : Leaves)
    (value patched : Value) (calls : List Call)
    (run : Nat → Transform → Except Stop Progress) : Prop :=
  ∃ result made, EndsIn transform leaves run (result, calls ++ made) ∧
    made.map (fun call => (call.position, call.argument)) = leaves ∧
    (leaves = [] → result = patched) ∧
    Patched calm (touched ++ leaves.map Prod.fst) position value result

/-- However a value has been patched so far, the run revises it at the leaves still to come. -/
def Passes (calm : Value → Value → Prop) (transform : Transform)
    (position : List Value.Position) (visits : Leaves) (value : Value)
    (run : Value → List Call → Nat → Transform → Except Stop Progress) : Prop :=
  ∀ touched patched calls, Patched calm touched position value patched →
    Free calm transform touched (under position visits) →
    Revises calm transform touched position (under position visits) value patched calls
      (run patched calls)

section

variable {calm : Value → Value → Prop} {transform : Transform}
  {touched : List (List Value.Position)} {position : List Value.Position} {leaves : Leaves}
  {value patched : Value} {calls : List Call} {run : Nat → Transform → Except Stop Progress}

/-- Where no leaf is to come, a run that leaves the value as it is will do. -/
theorem revises_of_still (whole : Patched calm touched position value patched)
    (still : EndsIn transform [] run (patched, calls)) :
    Revises calm transform touched position [] value patched calls run := by
  refine ⟨patched, [], ?_, rfl, fun _ => rfl, ?_⟩
  · rwa [List.append_nil]
  · simpa using whole

/-- A run that has its result for all transforms ends without leaves. -/
theorem endsIn_of_eq {α : Type} {run : Nat → Transform → Except Stop α} {result : α}
    (ends : ∀ fuel other, run fuel other = .ok result) : EndsIn transform [] run result :=
  ⟨0, fun fuel _ other _ => ends fuel other⟩

end

/-! ## Parts of containers -/

section

variable {calm : Value → Value → Prop} {transform : Transform}
  {touched : List (List Value.Position)} {position : List Value.Position}
  {visits : Value → Leaves} {leaves : Leaves}

/-- Mapping items patches them one after the other. -/
theorem mapItems_revises
    {next : Nat → Transform → Nat → Value → List Call → Except Stop Progress}
    (index : Nat) {items items' : List Value} (length : items'.length = items.length)
    (parts : ∀ number item item', items[number]? = some item → items'[number]? = some item' →
      Patched calm touched (position ++ [.index (index + number)]) item item')
    (come : under position ((items.zipIdx index).flatMap (fun entry =>
      under [.index entry.2] (visits entry.1))) = leaves)
    (free : Free calm transform touched leaves)
    (each : ∀ number item, items[number]? = some item →
      Passes calm transform (position ++ [.index (index + number)]) (visits item) item
        (fun item' calls fuel other => next fuel other (index + number) item' calls))
    (calls : List Call) :
    ∃ changed answers made,
      EndsIn transform leaves (fun fuel other => mapItems (next fuel other) index items' calls)
        (changed, answers, calls ++ made) ∧
      made.map (fun call => (call.position, call.argument)) = leaves ∧
      (leaves = [] → changed = false) ∧ answers.length = items.length ∧
      ∀ number item answer, items[number]? = some item → answers[number]? = some answer →
        Patched calm (touched ++ leaves.map Prod.fst) (position ++ [.index (index + number)])
          item answer := by
  induction items generalizing index items' touched leaves calls with
  | nil =>
    obtain rfl := List.length_eq_zero_iff.mp length
    subst come
    refine ⟨false, [], [], endsIn_of_eq (fun _ _ => ?_), rfl, fun _ => rfl, rfl, ?_⟩
    · rw [List.append_nil]
      rfl
    · intro number item answer held
      cases held
  | cons item rest ih =>
    cases items' with
    | nil => cases length
    | cons item' rest' =>
      have shift : ∀ number, index + (number + 1) = index + 1 + number := by omega
      rw [List.zipIdx_cons, List.flatMap_cons, under_append, under_under] at come
      subst come
      obtain ⟨answer, made, ending, called, kept, whole⟩ :=
        each 0 item rfl touched item' calls (parts 0 item item' rfl rfl) free.left
      have further := ih (index + 1) (by simpa using length)
        (fun number item item' held held' => by
          have part := parts (number + 1) item item' held held'
          rw [shift] at part
          exact part.mono (fun place member => List.mem_append_left _ member))
        rfl free.right
        (fun number item held => by
          have next := each (number + 1) item held
          rwa [shift] at next)
        (calls ++ made)
      obtain ⟨changed, answers, made', ending', called', kept', length', wholes⟩ := further
      -- the item is replaced when its answer differs from it
      refine ⟨changed || !answer.same item',
        (if answer.same item' then item' else answer) :: answers, made ++ made',
        ending.both ending' (fun fuel other first second => ?_), ?_, ?_, ?_, ?_⟩
      · simp only [Nat.add_zero] at first
        simp only [mapItems, first, second, ← List.append_assoc]
        cases answer.same item' <;> simp
      · rw [List.map_append, called, called']
        rfl
      · intro empty
        obtain ⟨empty, empty'⟩ := List.append_eq_nil_iff.mp empty
        rw [kept empty, kept' empty', same_self]
        rfl
      · rw [List.length_cons, List.length_cons, length']
      · intro number part answer' held held'
        cases number with
        | zero =>
          cases held
          cases held'
          split
          · exact (parts 0 item item' rfl rfl).mono (fun place member =>
              List.mem_append_left _ member)
          · refine whole.mono (fun place member => ?_)
            rw [List.map_append, ← List.append_assoc]
            exact List.mem_append_left _ member
        | succ number =>
          have part := wholes number part answer' held held'
          rw [← shift] at part
          rwa [List.map_append, ← List.append_assoc]

/-- Mapping the fields that are not declared patches them one after the other. -/
theorem mapFields_revises
    {next : Nat → Transform → Nat → String → Value → List Call → Except Stop Progress}
    {declared : List String} (index : Nat) {fields fields' : Fields Value}
    (distinct : Fields.Distinct fields)
    (all : PatchedFields calm touched position fields fields')
    (come : under position (fields.flatMap (fun entry =>
      if declared.contains entry.1 || entry.2.isUndefined then []
      else under [.key entry.1] (visits entry.2))) = leaves)
    (free : Free calm transform touched leaves)
    (each : ∀ key child, (key, child) ∈ fields → key ∉ declared → child.isUndefined = false →
      ∀ index, Passes calm transform (position ++ [.key key]) (visits child) child
        (fun child' calls fuel other => next fuel other index key child' calls))
    (calls : List Call) :
    ∃ changed answers made,
      EndsIn transform leaves
        (fun fuel other => mapFields (next fuel other) declared index fields' calls)
        (changed, answers, calls ++ made) ∧
      made.map (fun call => (call.position, call.argument)) = leaves ∧
      (leaves = [] → changed = false) ∧
      PatchedFields calm (touched ++ leaves.map Prod.fst) position fields answers := by
  induction fields generalizing index fields' touched leaves calls with
  | nil =>
    obtain rfl := List.map_eq_nil_iff.mp all.keys
    subst come
    refine ⟨false, [], [], endsIn_of_eq (fun _ _ => ?_), rfl, fun _ => rfl, rfl, fun _ => .same,
      fun _ _ => rfl⟩
    rw [List.append_nil]
    rfl
  | cons entry rest ih =>
    obtain ⟨key, child⟩ := entry
    match fields' with
    | [] => cases all.keys
    | (key', child') :: rest' =>
      obtain rfl : key = key' := (List.cons.inj all.keys).1.symm
      obtain ⟨new, distinct'⟩ := List.nodup_cons.mp distinct
      obtain ⟨whole, stays⟩ := all.head
      have each' := fun name inner (member : (name, inner) ∈ rest) =>
        each name inner (List.mem_cons_of_mem _ member)
      rw [List.flatMap_cons, under_append] at come
      by_cases skipped : (declared.contains key || child'.isUndefined) = true
      · -- nothing is to come at a field that is passed
        have empty : (if declared.contains key || child.isUndefined then []
            else under [.key key] (visits child)) = [] := by
          split
          · rfl
          · next open' =>
            rw [if_neg open', under_under] at come
            rw [Bool.not_eq_true, Bool.or_eq_false_iff] at open'
            rw [open'.1, Bool.false_or] at skipped
            subst come
            rw [free.left.eq_nil_of_touched (whole.touched_of_undefined open'.2 skipped)]
            rfl
        rw [empty] at come
        obtain ⟨changed, answers, made, ending, called, kept, later⟩ :=
          ih (index + 1) distinct' (all.tail new) come free each' calls
        refine ⟨changed, (key, child') :: answers, made, ending.imp (fun fuel other ended => ?_),
          called, kept, .cons ?_ stays later⟩
        · simp only [mapFields, skipped, ↓reduceIte, ended]
        · exact whole.mono (fun place member => List.mem_append_left _ member)
      · have open' := skipped
        rw [Bool.not_eq_true, Bool.or_eq_false_iff] at open'
        have there : child.isUndefined = false := by
          by_contra gone
          rw [Bool.not_eq_false] at gone
          rw [stays gone, gone] at open'
          exact absurd open'.2 (by decide)
        have undeclared : key ∉ declared := by simpa using open'.1
        rw [if_neg (by simp [undeclared, there]), under_under] at come
        subst come
        obtain ⟨answer, made, ending, called, kept, whole'⟩ :=
          each key child List.mem_cons_self undeclared there index touched child' calls whole
            free.left
        obtain ⟨changed, answers, made', ending', called', kept', later⟩ :=
          ih (index + 1) distinct'
            ((all.tail new).mono (fun place member => List.mem_append_left _ member))
            rfl free.right each' (calls ++ made)
        rw [List.append_assoc, ← List.map_append] at later
        -- the field is replaced when its answer differs from what it holds
        refine ⟨changed || !answer.same child',
          (key, if answer.same child' then child' else answer) :: answers, made ++ made',
          ending.both ending' (fun fuel other first second => ?_), ?_, fun empty => ?_,
          .cons ?_ (fun gone => absurd (there.symm.trans gone) (by decide)) later⟩
        · simp only [mapFields, skipped, first, second, ← List.append_assoc]
          cases answer.same child' <;> simp
        · rw [List.map_append, called, called']
        · obtain ⟨empty, empty'⟩ := List.append_eq_nil_iff.mp empty
          rw [kept empty, kept' empty', same_self]
          rfl
        · split
          · exact whole.mono (fun place member => List.mem_append_left _ member)
          · refine whole'.mono (fun place member => ?_)
            rw [List.map_append, ← List.append_assoc]
            exact List.mem_append_left _ member

end

/-! ## Steps -/

section

variable {calm : Value → Value → Prop} {transform : Transform}
  {touched : List (List Value.Position)} {position : List Value.Position}
  {visits : Value → Leaves} {leaves : Leaves} {rest : List Step} {calls : List Call}
  {origin content content' : Identity} {fields fields' : Fields Value}
  {items items' : List Value} {tags : Tags}
  {finish : Nat → Transform → Identity → List Value.Position → Value → List Call →
    Except Stop Progress}

/-- Leaves to come from a position are at or below it. -/
theorem exists_below (some : under position leaves ≠ []) :
    ∃ place ∈ touched ++ (under position leaves).map Prod.fst, position <+: place := by
  obtain ⟨⟨place, leaf⟩, member⟩ := List.exists_mem_of_ne_nil _ some
  obtain ⟨further, _, rfl⟩ := mem_under_iff.mp member
  exact ⟨_, List.mem_append_right _ (List.mem_map_of_mem member), List.prefix_append _ _⟩

/-- Steps through a property revise an object at the leaves in the value of the property. -/
theorem mapSteps_property_revises {name : String}
    (whole : Patched calm touched position (.object content fields tags)
      (.object content' fields' tags))
    (all : PatchedFields calm touched position fields fields')
    (free : Free calm transform touched
      (under position (visitsSteps visits (.property name :: rest) (.object content fields tags))))
    (inner : (Fields.lookup name fields).isUndefined = false →
      Passes calm transform (position ++ [.key name])
        (visitsSteps visits rest (Fields.lookup name fields)) (Fields.lookup name fields)
        (fun child calls fuel other => mapSteps (finish fuel other) rest (origin.part 0)
          (position ++ [.key name]) child calls)) :
    Revises calm transform touched position
      (under position (visitsSteps visits (.property name :: rest) (.object content fields tags)))
      (.object content fields tags) (.object content' fields' tags) calls
      (fun fuel other => mapSteps (finish fuel other) (.property name :: rest) origin position
        (.object content' fields' tags) calls) := by
  rw [visitsSteps] at free ⊢
  by_cases gone : (Fields.lookup name fields').isUndefined = true
  · -- nothing is to come where nothing is left
    have empty : (if (Fields.lookup name fields).isUndefined then []
        else under [.key name] (visitsSteps visits rest (Fields.lookup name fields))) = [] := by
      split
      · rfl
      · next there =>
        rw [if_neg there, under_under] at free
        rw [Bool.not_eq_true] at there
        rw [free.eq_nil_of_touched ((all.parts name).touched_of_undefined there gone)]
        rfl
    rw [empty]
    refine revises_of_still whole (endsIn_of_eq (fun fuel other => ?_))
    simp only [mapSteps, ← lookup_eq, gone, ↓reduceIte]
  · have there : (Fields.lookup name fields).isUndefined = false := by
      by_contra gone'
      rw [Bool.not_eq_false] at gone'
      exact gone (all.absent name gone' ▸ gone')
    rw [if_neg (by simp [there]), under_under] at free ⊢
    obtain ⟨answer, made, ending, called, kept, part⟩ :=
      inner there touched (Fields.lookup name fields') calls (all.parts name) free
    refine ⟨if answer.same (Fields.lookup name fields') then .object content' fields' tags
      else .object (.revised content' origin) (Fields.insert name answer fields') tags, made,
      ending.imp (fun fuel other ended => ?_), called, fun empty => ?_, ?_⟩
    · by_cases shared : answer.same (Fields.lookup name fields') = true <;>
        simp [mapSteps, ← lookup_eq, gone, ended, shared]
    · rw [kept empty, same_self]
      rfl
    · have all' := all.mono (fun place member => List.mem_append_left
        ((under (position ++ [.key name])
          (visitsSteps visits rest (Fields.lookup name fields))).map Prod.fst) member)
      split
      · exact whole.mono (fun place member => List.mem_append_left _ member)
      · next changed =>
        have written := all'.insert (Bool.eq_false_iff.mpr gone) part there
        refine .object ?_ written.keys written.parts written.absent
        rw [← under_under]
        refine exists_below (fun empty => changed ?_)
        rw [under_under] at empty
        rw [kept empty, same_self]

/-- Steps through other fields revise an object at the leaves in each of them. -/
theorem mapSteps_others_revises {declared : List String} (distinct : Fields.Distinct fields)
    (whole : Patched calm touched position (.object content fields tags)
      (.object content' fields' tags))
    (all : PatchedFields calm touched position fields fields')
    (free : Free calm transform touched (under position
      (visitsSteps visits (.others declared :: rest) (.object content fields tags))))
    (inner : ∀ key child, (key, child) ∈ fields → key ∉ declared → child.isUndefined = false →
      ∀ origin, Passes calm transform (position ++ [.key key]) (visitsSteps visits rest child) child
        (fun child' calls fuel other => mapSteps (finish fuel other) rest origin
          (position ++ [.key key]) child' calls)) :
    Revises calm transform touched position
      (under position (visitsSteps visits (.others declared :: rest) (.object content fields tags)))
      (.object content fields tags) (.object content' fields' tags) calls
      (fun fuel other => mapSteps (finish fuel other) (.others declared :: rest) origin position
        (.object content' fields' tags) calls) := by
  rw [visitsSteps] at free ⊢
  obtain ⟨changed, answers, made, ending, called, kept, all'⟩ :=
    mapFields_revises 0 distinct all rfl free
      (fun key child member undeclared there index =>
        inner key child member undeclared there (origin.part index)) calls
  refine ⟨if changed then .object (.revised content' origin) answers tags
    else .object content' fields' tags, made, ending.imp (fun fuel other ended => ?_), called,
    fun empty => ?_, ?_⟩
  · simp only [mapSteps, ended]
    cases changed <;> rfl
  · rw [kept empty]
    rfl
  · split
    · next changed =>
      refine .object (exists_below (fun empty => ?_)) all'.keys all'.parts all'.absent
      exact absurd ((kept empty).symm.trans changed) (by decide)
    · exact whole.mono (fun place member => List.mem_append_left _ member)

/-- Steps through items revise an array at the leaves in each item. -/
theorem mapSteps_items_revises (length : items'.length = items.length)
    (whole : Patched calm touched position (.array content items tags)
      (.array content' items' tags))
    (parts : ∀ index item item', items[index]? = some item → items'[index]? = some item' →
      Patched calm touched (position ++ [.index index]) item item')
    (free : Free calm transform touched
      (under position (visitsSteps visits (.items :: rest) (.array content items tags))))
    (inner : ∀ index item, items[index]? = some item → ∀ origin,
      Passes calm transform (position ++ [.index index]) (visitsSteps visits rest item) item
        (fun item' calls fuel other => mapSteps (finish fuel other) rest origin
          (position ++ [.index index]) item' calls)) :
    Revises calm transform touched position
      (under position (visitsSteps visits (.items :: rest) (.array content items tags)))
      (.array content items tags) (.array content' items' tags) calls
      (fun fuel other => mapSteps (finish fuel other) (.items :: rest) origin position
        (.array content' items' tags) calls) := by
  rw [visitsSteps] at free ⊢
  obtain ⟨changed, answers, made, ending, called, kept, length', parts'⟩ :=
    mapItems_revises 0 length
      (fun index item item' held held' => by simpa using parts index item item' held held')
      rfl free
      (fun index item held => by
        rw [Nat.zero_add]
        exact inner index item held (origin.part index)) calls
  refine ⟨if changed then .array (.revised content' origin) answers tags
    else .array content' items' tags, made, ending.imp (fun fuel other ended => ?_), called,
    fun empty => ?_, ?_⟩
  · simp only [mapSteps, ended]
    cases changed <;> rfl
  · rw [kept empty]
    rfl
  · split
    · next changed =>
      refine .array (exists_below (fun empty => ?_)) length' (fun index item item' held held' => ?_)
      · exact absurd ((kept empty).symm.trans changed) (by decide)
      · simpa using parts' index item item' held held'
    · exact whole.mono (fun place member => List.mem_append_left _ member)

end

end Conform.Traversal
