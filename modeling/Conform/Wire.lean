import Conform.Tags
import Conform.Value.Basic

/-!
# The wire form of values

A value on the wire has its properties under their wire names. Only tags say which
names those are, so an object without tags keeps its keys; what it holds is written in
wire form all the same.
-/

namespace Conform

namespace Value

/-- The wire name of a key: that of the first tag, behind its names an object, that
declares the key. -/
def wireKey (definitions : Definitions) (tags : Tags) (key : String) : String :=
  match (tags.filterMap (Schema.properties? definitions)).findSome?
      (fun properties => Property.find? properties key) with
  | some property => property.wireName.getD key
  | none => key

mutual

/-- The document of a value in wire form. -/
def toWire (definitions : Definitions) : Value → Json
  | .undefined => .null
  | .null => .null
  | .bool value => .bool value
  | .number value => .number value
  | .string value => .string value
  | .array _ items _ => .array (toWireItems definitions items)
  | .object _ fields tags =>
    .object (Fields.ofList (toWireFields definitions tags fields))

/-- The items in wire form. -/
def toWireItems (definitions : Definitions) : List Value → List Json
  | [] => []
  | item :: rest => toWire definitions item :: toWireItems definitions rest

/-- The fields that have a value, in wire form. -/
def toWireFields (definitions : Definitions) (tags : Tags) :
    List (String × Value) → List (String × Json)
  | [] => []
  | (key, value) :: rest =>
    if value.isUndefined then toWireFields definitions tags rest
    else (wireKey definitions tags key, toWire definitions value) ::
      toWireFields definitions tags rest

end

end Value

end Conform
