import Conform.Validator.OfSchema
import Conform.Validator.Run

/-!
# Membership in named schemas

Containers belong to a name when they carry it as a tag. Scalars carry no tags and are
checked by the name's validator. For other shapes the question has no answer.
-/

namespace Conform

namespace Surroundings

/-- What runs see when every name is bound to its definition's validator and every part
is built. -/
def ofDefinitions (definitions : Definitions) (format : String → Option Validator) :
    Surroundings where
  bound ref := some (.ofName definitions ref)
  built _ := true
  format := format

end Surroundings

namespace NamedRef

/-- Whether the definition is directly an object. -/
def isObject (definitions : Definitions) (ref : NamedRef) : Bool :=
  match definitions ref with
  | .object _ _ _ => true
  | _ => false

/-- Whether a value belongs to the name; nothing when that cannot be asked. -/
def isA (definitions : Definitions) (surroundings : Surroundings) (fuel : Nat)
    (ref : NamedRef) (place : Identity) (value : Value) : Except Stop (Option Bool) :=
  match (definitions ref).resolve definitions with
  | .object _ _ _ => .ok (some (value.hasTag (.named ref)))
  | .array _ _ _ _ => .ok (some (value.hasTag (.named ref)))
  | other =>
    if other.isScalar definitions then
      match Validator.run surroundings fuel (.reference ref) .strict place value with
      | .error stop => .error stop
      | .ok verdict => .ok (some verdict.isAccepted)
    else .ok none

end NamedRef

end Conform
