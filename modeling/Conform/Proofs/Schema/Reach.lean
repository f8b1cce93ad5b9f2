import Conform.Schema.Resolve
import Mathlib.Logic.Relation

/-!
# The nodes behind a schema

A schema leads on to other schemas in two ways. The options of a union, the components of
an intersection and the definition of a name judge the very value that the schema judges:
these are its facets. The items of an array and the properties of an object judge what the
value holds: these are its contents. A schema reaches every node that it leads to in any
number of steps, names included, and a property of nodes holds throughout a schema when it
holds of all of them.

A schema is grounded when no chain of facets goes on for ever, at none of the nodes it
reaches. Then it recurs only by way of arrays and objects. It is anchored when this holds
even for chains that pass through the items of arrays as well, as they do where a lone
scalar is taken for the only item. Then it recurs only by way of objects.
-/

namespace Conform

/-- The bodies that judge other properties. -/
def Additional.bodies {α : Type} : Additional α → List α
  | .each body => [body]
  | _ => []

/-- What judges a declared property is among the bodies. -/
theorem Additional.declared_mem {α : Type} {properties : List (Property α)}
    {property : Property α} (member : property ∈ properties) (additional : Additional α) :
    property.body ∈ properties.map Property.body ++ additional.bodies :=
  List.mem_append_left _ (List.mem_map_of_mem member)

/-- What judges other properties is among the bodies. -/
theorem Additional.each_mem {α : Type} (properties : List (Property α)) {additional : Additional α}
    {body : α} (typed : additional = .each body) :
    body ∈ properties.map Property.body ++ additional.bodies := by
  subst typed
  exact List.mem_append_right _ (List.mem_singleton.mpr rfl)

namespace Schema

/-- The schemas that judge the same value. -/
def facets (definitions : Definitions) : Schema → List Schema
  | .union _ choices => choices
  | .intersection _ components => components
  | .named ref => [definitions ref]
  | _ => []

/-- The schemas that judge what a value holds. -/
def contents : Schema → List Schema
  | .array _ items _ _ => [items]
  | .object _ properties additional => properties.map Property.body ++ additional.bodies
  | _ => []

/-- The schemas one step further. -/
def parts (definitions : Definitions) (schema : Schema) : List Schema :=
  schema.facets definitions ++ schema.contents

/-- One schema leads to another in any number of steps. -/
def Reaches (definitions : Definitions) : Schema → Schema → Prop :=
  Relation.ReflTransGen (fun outer inner => inner ∈ outer.parts definitions)

/-- A property holds of every node that the schema reaches, itself included. -/
def Throughout (definitions : Definitions) (holds : Schema → Prop) (schema : Schema) : Prop :=
  ∀ node, Reaches definitions schema node → holds node

/-- One schema judges the same value on behalf of another. -/
def Facet (definitions : Definitions) (inner outer : Schema) : Prop :=
  inner ∈ outer.facets definitions

/-- Chains of facets end, whichever node they start from. -/
def Grounded (definitions : Definitions) (schema : Schema) : Prop :=
  schema.Throughout definitions (Acc (Facet definitions))

/-- The schemas that judge the same scalar, when arrays take it for their only item. -/
def clinging (definitions : Definitions) : Schema → List Schema
  | .array _ items _ _ => [items]
  | schema => schema.facets definitions

/-- One schema judges the same scalar on behalf of another, when arrays take it for their
only item. -/
def Clings (definitions : Definitions) (inner outer : Schema) : Prop :=
  inner ∈ outer.clinging definitions

/-- Chains of facets and items end, whichever node they start from. -/
def Anchored (definitions : Definitions) (schema : Schema) : Prop :=
  schema.Throughout definitions (Acc (Clings definitions))

variable {definitions : Definitions} {holds : Schema → Prop} {schema inner : Schema}

/-- What holds throughout a schema holds of it. -/
theorem Throughout.here (everywhere : schema.Throughout definitions holds) : holds schema :=
  everywhere schema Relation.ReflTransGen.refl

/-- What holds throughout a schema holds throughout whatever it reaches. -/
theorem Throughout.reached (everywhere : schema.Throughout definitions holds)
    (reached : schema.Reaches definitions inner) : inner.Throughout definitions holds :=
  fun node further => everywhere node (Relation.ReflTransGen.trans reached further)

/-- What holds throughout a schema holds throughout its parts. -/
theorem Throughout.part (everywhere : schema.Throughout definitions holds)
    (member : inner ∈ schema.parts definitions) : inner.Throughout definitions holds :=
  fun node reached => everywhere node (Relation.ReflTransGen.head member reached)

/-- What holds throughout a schema holds throughout its facets. -/
theorem Throughout.facet (everywhere : schema.Throughout definitions holds)
    (member : inner ∈ schema.facets definitions) : inner.Throughout definitions holds :=
  everywhere.part (List.mem_append_left _ member)

/-- The property of a node may be weakened. -/
theorem Throughout.imp {other : Schema → Prop} (everywhere : schema.Throughout definitions holds)
    (weaker : ∀ node, holds node → other node) : schema.Throughout definitions other :=
  fun node reached => weaker node (everywhere node reached)

/-- What holds of a node and throughout its parts holds throughout the node. -/
theorem throughout_of_parts (here : holds schema)
    (parts : ∀ part ∈ schema.parts definitions, part.Throughout definitions holds) :
    schema.Throughout definitions holds := by
  intro node reached
  rcases Relation.ReflTransGen.cases_head reached with rfl | ⟨part, member, further⟩
  · exact here
  · exact parts part member node further

/-- What holds of the nodes of a list that no step leaves holds throughout each of them. -/
theorem throughout_of_closed (nodes : List Schema)
    (closed : ∀ node ∈ nodes, ∀ part ∈ node.parts definitions, part ∈ nodes)
    (all : ∀ node ∈ nodes, holds node) (member : schema ∈ nodes) :
    schema.Throughout definitions holds := by
  intro node reached
  have inside : node ∈ nodes := by
    induction reached with
    | refl => exact member
    | tail _ step ih => exact closed _ ih _ step
  exact all node inside

section

variable {relation : Schema → Schema → Prop}

/-- Chains of a relation along parts end when each of its steps leads to a smaller rank. -/
theorem throughout_acc_of_rank
    (along : ∀ {inner outer}, relation inner outer → inner ∈ outer.parts definitions)
    (rank : Schema → Nat)
    (falls : schema.Throughout definitions
      (fun node => ∀ inner, relation inner node → rank inner < rank node)) :
    schema.Throughout definitions (Acc relation) := by
  have chains : ∀ bound node, node.Throughout definitions
      (fun node => ∀ inner, relation inner node → rank inner < rank node) →
      rank node < bound → Acc relation node := by
    intro bound
    induction bound with
    | zero =>
      intro node _ small
      exact absurd small (Nat.not_lt_zero _)
    | succ bound ih =>
      intro node below small
      constructor
      intro inner step
      have smaller := below.here inner step
      exact ih inner (below.part (along step)) (by omega)
  intro node reached
  refine chains (rank node + 1) node (fun further steps => ?_) (Nat.lt_succ_self _)
  exact falls further (Relation.ReflTransGen.trans reached steps)

/-- What follows for a schema at a size from the next in each chain at that size, and from
all that it reaches at smaller sizes, holds at every size where chains end. -/
theorem chains_induction
    (along : ∀ {inner outer}, relation inner outer → inner ∈ outer.parts definitions)
    {motive : Schema → Nat → Prop}
    (step : ∀ schema size, schema.Throughout definitions holds →
      schema.Throughout definitions (Acc relation) →
      (∀ inner, relation inner schema → motive inner size) →
      (∀ part, schema.Reaches definitions part → ∀ less < size, motive part less) →
      motive schema size)
    (everywhere : schema.Throughout definitions holds)
    (ends : schema.Throughout definitions (Acc relation)) (size : Nat) : motive schema size := by
  induction size using Nat.strongRecOn generalizing schema with
  | ind size below =>
  have chains := ends.here
  induction chains with
  | intro schema _ next =>
  refine step schema size everywhere ends (fun inner chained => ?_)
    (fun part reached less fewer => ?_)
  · exact next inner chained (everywhere.part (along chained)) (ends.part (along chained))
  · exact below less fewer (everywhere.reached reached) (ends.reached reached)

end

/-- Facets are parts. -/
theorem Facet.part {outer : Schema} (facet : Facet definitions inner outer) :
    inner ∈ outer.parts definitions :=
  List.mem_append_left _ facet

/-- What clings to a schema is a part of it. -/
theorem Clings.part {outer : Schema} (clings : Clings definitions inner outer) :
    inner ∈ outer.parts definitions := by
  cases outer with
  | array node items least most => exact List.mem_append_right _ clings
  | _ => exact List.mem_append_left _ clings

/-- Facets cling to a schema. -/
theorem Facet.clings {outer : Schema} (facet : Facet definitions inner outer) :
    Clings definitions inner outer := by
  cases outer with
  | array node items least most => cases facet
  | _ => exact facet

/-- A schema is anchored when what clings to a node it reaches has a smaller rank. -/
theorem anchored_of_rank (rank : Schema → Nat)
    (falls : schema.Throughout definitions
      (fun node => ∀ inner ∈ node.clinging definitions, rank inner < rank node)) :
    schema.Anchored definitions :=
  throughout_acc_of_rank Clings.part rank falls

/-- A schema is grounded when every facet of a node it reaches has a smaller rank. -/
theorem grounded_of_rank (rank : Schema → Nat)
    (falls : schema.Throughout definitions
      (fun node => ∀ facet ∈ node.facets definitions, rank facet < rank node)) :
    schema.Grounded definitions :=
  throughout_acc_of_rank Facet.part rank falls

/-- What follows for a schema at a depth from its facets at that depth and from all that it
reaches at smaller depths holds of every grounded schema at every depth. -/
theorem grounded_induction {motive : Schema → Nat → Prop}
    (step : ∀ schema depth, schema.Throughout definitions holds →
      schema.Grounded definitions →
      (∀ facet ∈ schema.facets definitions, motive facet depth) →
      (∀ part, schema.Reaches definitions part → ∀ less < depth, motive part less) →
      motive schema depth)
    (everywhere : schema.Throughout definitions holds) (grounded : schema.Grounded definitions)
    (depth : Nat) : motive schema depth :=
  chains_induction Facet.part step everywhere grounded depth

end Schema

namespace Schema

variable {node : Nat} {definitions : Definitions} {schema : Schema}

/-- The body of a declared property is part of its object. -/
theorem body_mem_contents {properties : List (Property Schema)} {additional : Additional Schema}
    {property : Property Schema} (member : property ∈ properties) :
    property.body ∈ (Schema.object node properties additional).contents :=
  additional.declared_mem member

/-- What judges other properties is part of its object. -/
theorem each_mem_contents {properties : List (Property Schema)} {body : Schema} :
    body ∈ (Schema.object node properties (.each body)).contents :=
  Additional.each_mem properties rfl

/-- The items are part of their array. -/
theorem items_mem_contents {items : Schema} {least most : Option Nat} :
    items ∈ (Schema.array node items least most).contents :=
  List.mem_singleton.mpr rfl

/-- What a name stands for is a facet of the name. -/
theorem definition_mem_facets {ref : NamedRef} :
    definitions ref ∈ (Schema.named ref).facets definitions :=
  List.mem_singleton.mpr rfl

end Schema

/-! ## A family that recurs by way of an array

A shape is a circle, or a group of shapes. The nodes of the family are closed under steps,
and a rank that falls along facets shows that it is grounded.
-/

namespace Shapes

/-- Any shape. -/
def shape : Schema :=
  .named ⟨0, "Shape"⟩

/-- The variants of shapes. -/
def variants : List Schema :=
  [.named ⟨1, "Circle"⟩, .named ⟨2, "Group"⟩]

/-- A circle has a radius. -/
def circle : Schema :=
  .object 11 [⟨"kind", true, some "type", .string 12 { allowed := [.string "circle"] }⟩,
    ⟨"radius", true, some "r", .number 13 {}⟩] .deny

/-- A group has members. -/
def group : Schema :=
  .object 14 [⟨"kind", true, some "type", .string 15 { allowed := [.string "group"] }⟩,
    ⟨"members", true, none, .array 16 shape none none⟩] .keep

/-- A radius. -/
def radius : Number :=
  .integer 2 (by decide)

/-- What the names stand for. -/
def definitions (ref : NamedRef) : Schema :=
  match ref.key with
  | 0 => .union 10 variants
  | 1 => circle
  | 2 => group
  | _ => .unknown

/-- All nodes of the family. -/
def nodes : List Schema :=
  [shape, .union 10 variants, .named ⟨1, "Circle"⟩, .named ⟨2, "Group"⟩, circle, group,
    .string 12 { allowed := [.string "circle"] }, .number 13 {},
    .string 15 { allowed := [.string "group"] }, .array 16 shape none none]

/-- What holds of the nodes holds throughout the schemas of the family. -/
theorem throughout {holds : Schema → Prop} (all : ∀ node ∈ nodes, holds node) {schema : Schema}
    (member : schema ∈ nodes) : schema.Throughout definitions holds :=
  Schema.throughout_of_closed nodes (by decide +kernel) all member

/-- Names of shapes rank above their variants, and these above their definitions. -/
def rank : Schema → Nat
  | .named ⟨0, _⟩ => 3
  | .union _ _ => 2
  | .named _ => 1
  | _ => 0

/-- The schemas of shapes are grounded. -/
theorem grounded {schema : Schema} (member : schema ∈ nodes) : schema.Grounded definitions :=
  Schema.grounded_of_rank rank (throughout (by decide +kernel) member)

/-- Arrays of shapes rank above shapes. -/
def rankOfClinging : Schema → Nat
  | .array _ _ _ _ => 4
  | schema => rank schema

/-- The schemas of shapes are anchored. -/
theorem anchored {schema : Schema} (member : schema ∈ nodes) : schema.Anchored definitions :=
  Schema.anchored_of_rank rankOfClinging (throughout (by decide +kernel) member)

end Shapes

end Conform
