import Conform.Formats
import Conform.Membership

/-!
# Catalogs

A catalog keeps what outlives a single validation: names and their definitions, which
are given once; the validators of names, which are made on first use from the
definitions at that moment and kept; the parts that are built; and the formats. A run
that misses a name or a part is repeated after the catalog has supplied it.
-/

namespace Conform

/-- Names, definitions, validators in use and formats. -/
structure Catalog where
  /-- The names declared so far. -/
  names : List NamedRef
  /-- The definitions given so far. -/
  definitions : List (NamedRef × Schema)
  /-- The validators made so far. -/
  bound : List (NamedRef × Validator)
  /-- Count of parts to be built on first use. -/
  cells : Nat
  /-- The parts built so far. -/
  built : List Nat
  /-- The registered formats. -/
  formats : Formats

namespace Catalog

/-- Nothing but the built-in formats. -/
def initial : Catalog where
  names := []
  definitions := []
  bound := []
  cells := 0
  built := []
  formats := .builtin

/-- Declares a new name without a definition. -/
def declare (catalog : Catalog) (name : String) : NamedRef × Catalog :=
  let ref : NamedRef := ⟨catalog.names.length, name⟩
  (ref, { catalog with names := catalog.names ++ [ref] })

/-- The definitions as they stand. -/
def meaning (catalog : Catalog) : Definitions := fun ref =>
  (catalog.definitions.lookup ref).getD .unknown

/-- Gives a name its definition, once. -/
def define (catalog : Catalog) (ref : NamedRef) (schema : Schema) : Except Fault Catalog :=
  match catalog.definitions.lookup ref with
  | some _ => .error (.alreadyDefined ref.name)
  | none => .ok { catalog with definitions := (ref, schema) :: catalog.definitions }

/-- The validator of a name, made from the definitions as they stand unless it was made
before. -/
def bind (catalog : Catalog) (ref : NamedRef) : Validator × Catalog :=
  match catalog.bound.lookup ref with
  | some validator => (validator, catalog)
  | none =>
    let validator := Validator.ofName catalog.meaning ref
    (validator, { catalog with bound := (ref, validator) :: catalog.bound })

/-- Reserves a part that is built on first use. -/
def reserve (catalog : Catalog) : Nat × Catalog :=
  (catalog.cells, { catalog with cells := catalog.cells + 1 })

/-- Registers a format. -/
def register (catalog : Catalog) (name : String) (validator : Validator) :
    Except Fault Catalog :=
  (catalog.formats.register name validator).map (fun formats => { catalog with formats })

/-- What runs see of the catalog. -/
def surroundings (catalog : Catalog) : Surroundings where
  bound ref := catalog.bound.lookup ref
  built cell := catalog.built.contains cell
  format name := Fields.get? name catalog.formats

/-- Supplies what a run missed; nothing when calls nested too deeply. -/
def supply (catalog : Catalog) : Stop → Option Catalog
  | .exhausted => none
  | .unbound ref => some (catalog.bind ref).2
  | .unbuilt cell => some { catalog with built := cell :: catalog.built }

/-- Repeats an attempt for so many rounds, each time with what it missed. -/
def settleWithin {α : Type} (attempt : Catalog → Except Stop α) :
    Nat → Catalog → Option α × Catalog
  | 0, catalog => (none, catalog)
  | rounds + 1, catalog =>
    match attempt catalog with
    | .ok result => (some result, catalog)
    | .error stop =>
      match catalog.supply stop with
      | some catalog => settleWithin attempt rounds catalog
      | none => (none, catalog)

/-- Repeats an attempt until it misses nothing: once for every name and part at most. -/
def settle {α : Type} (catalog : Catalog) (attempt : Catalog → Except Stop α) :
    Option α × Catalog :=
  settleWithin attempt (catalog.names.length + catalog.cells + 1) catalog

/-- Validates a value with at most `limit` nested calls. -/
def validate (catalog : Catalog) (limit : Nat) (validator : Validator) (options : Options)
    (place : Identity) (value : Value) : Option Verdict × Catalog :=
  catalog.settle (fun catalog =>
    Validator.run catalog.surroundings limit validator options place value)

/-- Whether a value belongs to a name. -/
def isA (catalog : Catalog) (limit : Nat) (ref : NamedRef) (place : Identity) (value : Value) :
    Option (Option Bool) × Catalog :=
  catalog.settle (fun catalog =>
    ref.isA catalog.meaning catalog.surroundings limit place value)

end Catalog

end Conform
