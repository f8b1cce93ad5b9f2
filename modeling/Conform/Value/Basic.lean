import Conform.Identity
import Conform.Json.Reader
import Conform.Tags

/-!
# Values

What is validated and what validation produces: JSON data, a mark for the absence of a
value, and on every container the identity of its content and its type tags. Tags
belong to the value, not to its content. Changing a container makes a new content and
keeps the tags.
-/

namespace Conform

/-- A value. -/
inductive Value where
  /-- No value. -/
  | undefined
  | null
  | bool (value : Bool)
  | number (value : Number)
  | string (value : String)
  | array (content : Identity) (items : List Value) (tags : Tags)
  | object (content : Identity) (fields : List (String × Value)) (tags : Tags)

namespace Value

/-- The kinds of values. -/
inductive Kind where
  | undefined
  | null
  | boolean
  | number
  | string
  | array
  | object
  deriving DecidableEq

/-- The word for a kind. -/
def Kind.name : Kind → String
  | .undefined => "undefined"
  | .null => "null"
  | .boolean => "boolean"
  | .number => "number"
  | .string => "string"
  | .array => "array"
  | .object => "object"

/-- The kind of a value. -/
def kind : Value → Kind
  | .undefined => .undefined
  | .null => .null
  | .bool _ => .boolean
  | .number _ => .number
  | .string _ => .string
  | .array _ _ _ => .array
  | .object _ _ _ => .object

/-- Whether there is no value. -/
def isUndefined : Value → Bool
  | .undefined => true
  | _ => false

/-- The string, if the value is one. -/
def string? : Value → Option String
  | .string value => some value
  | _ => none

/-- The number, if the value is one. -/
def number? : Value → Option Number
  | .number value => some value
  | _ => none

/-- The truth value, if the value is one. -/
def bool? : Value → Option Bool
  | .bool value => some value
  | _ => none

/-- The items, if the value is an array. -/
def items? : Value → Option (List Value)
  | .array _ items _ => some items
  | _ => none

/-- The fields, if the value is an object. -/
def fields? : Value → Option (Fields Value)
  | .object _ fields _ => some fields
  | _ => none

/-- The tags a container carries; nothing for scalars. -/
def tags? : Value → Option Tags
  | .array _ _ tags => some tags
  | .object _ _ tags => some tags
  | _ => none

/-- The tags; none for scalars. -/
def tags (value : Value) : Tags :=
  value.tags?.getD []

/-- Whether the value carries the tag. -/
def hasTag (value : Value) (schema : Schema) : Bool :=
  value.tags.has schema

/-- The value with further tags; scalars carry none. -/
def withTags (value : Value) (schemas : List Schema) : Value :=
  match value with
  | .array content items tags => .array content items (tags.merge schemas)
  | .object content fields tags => .object content fields (tags.merge schemas)
  | scalar => scalar

/-- The literal that a scalar denotes. -/
def literal? : Value → Option Literal
  | .null => some .null
  | .bool value => some (.bool value)
  | .number value => some (.number value.toBinary64)
  | .string value => some (.string value)
  | _ => none

/-- The value of a binary64 computation: null when there is no finite result. -/
def ofBinary64? : Option Binary64 → Value
  | some value => .number (.float value)
  | none => .null

/-! ## Equality -/

mutual

/-- Equality of data: numbers as binary64, objects without regard to order, tags and
identities not looked at. -/
def eq : Value → Value → Bool
  | .undefined, .undefined => true
  | .null, .null => true
  | .bool left, .bool right => left == right
  | .number left, .number right => left.numericEq right
  | .string left, .string right => left == right
  | .array _ items _, .array _ items' _ => eqItems items items'
  | .object _ fields _, .object _ fields' _ =>
    fields.length == fields'.length && eqFields fields fields'
  | _, _ => false

/-- Equality of items in order. -/
def eqItems : List Value → List Value → Bool
  | [], [] => true
  | item :: rest, item' :: rest' => eq item item' && eqItems rest rest'
  | _, _ => false

/-- Every field of the first has an equal one of the same key in the second. -/
def eqFields : List (String × Value) → List (String × Value) → Bool
  | [], _ => true
  | (key, value) :: rest, fields =>
    (match Fields.get? key fields with
    | some value' => eq value value'
    | none => false) && eqFields rest fields

end

/-- Sharing: containers by the identity of their content, scalars by equality. -/
def same : Value → Value → Bool
  | .array content _ _, .array content' _ _ => content == content'
  | .object content _ _, .object content' _ _ => content == content'
  | .array _ _ _, _ => false
  | .object _ _ _, _ => false
  | left, right => left.eq right

/-! ## Documents -/

mutual

/-- The value of a document, made at a place; containers carry no tags. -/
def ofJson (place : Identity) : Json → Value
  | .null => .null
  | .bool value => .bool value
  | .number value => .number value
  | .string value => .string value
  | .array items => .array place (ofItems place 0 items) []
  | .object fields => .object place (ofFields place 0 fields) []

/-- The values of array items, numbered from `index`. -/
def ofItems (place : Identity) (index : Nat) : List Json → List Value
  | [] => []
  | item :: rest => ofJson (place.part index) item :: ofItems place (index + 1) rest

/-- The values of object fields, numbered from `index`. -/
def ofFields (place : Identity) (index : Nat) : List (String × Json) → List (String × Value)
  | [] => []
  | (key, value) :: rest =>
    (key, ofJson (place.part index) value) :: ofFields place (index + 1) rest

end

mutual

/-- The document of a value: fields without a value are left out, any other absence of a
value is null. -/
def toJson : Value → Json
  | .undefined => .null
  | .null => .null
  | .bool value => .bool value
  | .number value => .number value
  | .string value => .string value
  | .array _ items _ => .array (toItems items)
  | .object _ fields _ => .object (toFields fields)

/-- The documents of array items. -/
def toItems : List Value → List Json
  | [] => []
  | item :: rest => toJson item :: toItems rest

/-- The documents of the fields that have a value. -/
def toFields : List (String × Value) → List (String × Json)
  | [] => []
  | (key, value) :: rest =>
    if value.isUndefined then toFields rest else (key, toJson value) :: toFields rest

end

/-- The value of a text, if it is a document. -/
def parse? (place : Identity) (text : String) : Option Value :=
  (Json.parse? text).map (ofJson place)

/-- The compact text of the value's document. -/
def text (value : Value) : String :=
  value.toJson.text

/-! ## Changes -/

/-- Writes a field of an object, which makes a new content; other values stay. -/
def withField (value : Value) (place : Identity) (key : String) (field : Value) : Value :=
  match value with
  | .object content fields tags =>
    .object (.revised content place) (Fields.insert key field fields) tags
  | other => other

/-- Writes an item of an array, which makes a new content even when the index is out of
range; other values stay. -/
def withItem (value : Value) (place : Identity) (index : Nat) (item : Value) : Value :=
  match value with
  | .array content items tags => .array (.revised content place) (items.set index item) tags
  | other => other

/-- Appends an item to an array, which makes a new content; other values stay. -/
def push (value : Value) (place : Identity) (item : Value) : Value :=
  match value with
  | .array content items tags => .array (.revised content place) (items ++ [item]) tags
  | other => other

/-! ## Places -/

/-- A step from a container to one of its parts. -/
inductive Position where
  | key (key : String)
  | index (index : Nat)
  deriving DecidableEq

/-- The part one step down. -/
def child? : Position → Value → Option Value
  | .key key, .object _ fields _ => Fields.get? key fields
  | .index index, .array _ items _ => items[index]?
  | _, _ => none

/-- The part at a place. -/
def at? : List Position → Value → Option Value
  | [], value => some value
  | step :: rest, value => (value.child? step).bind (at? rest)

mutual

/-- All parts with their places, the whole first, then part by part. -/
def parts (place : List Position) : Value → List (List Position × Value)
  | .array content items tags =>
    (place, .array content items tags) :: itemParts place 0 items
  | .object content fields tags =>
    (place, .object content fields tags) :: fieldParts place fields
  | scalar => [(place, scalar)]

/-- The parts of items, numbered from `index`. -/
def itemParts (place : List Position) (index : Nat) :
    List Value → List (List Position × Value)
  | [] => []
  | item :: rest =>
    parts (place ++ [.index index]) item ++ itemParts place (index + 1) rest

/-- The parts of fields. -/
def fieldParts (place : List Position) :
    List (String × Value) → List (List Position × Value)
  | [] => []
  | (key, value) :: rest => parts (place ++ [.key key]) value ++ fieldParts place rest

end

mutual

/-- The topmost containers of a value that share their content with what another value
has at their place. -/
def sharedParts (place : List Position) (value other : Value) : List (List Position) :=
  match value with
  | .array content items tags =>
    if (Value.array content items tags).same other then [place]
    else sharedItems place 0 items other
  | .object content fields tags =>
    if (Value.object content fields tags).same other then [place]
    else sharedFields place fields other
  | _ => []

/-- The shared containers among items, numbered from `index`. -/
def sharedItems (place : List Position) (index : Nat) (items : List Value) (other : Value) :
    List (List Position) :=
  match items with
  | [] => []
  | item :: rest =>
    (match other.child? (.index index) with
    | some counterpart => sharedParts (place ++ [.index index]) item counterpart
    | none => []) ++ sharedItems place (index + 1) rest other

/-- The shared containers among fields. -/
def sharedFields (place : List Position) (fields : List (String × Value)) (other : Value) :
    List (List Position) :=
  match fields with
  | [] => []
  | (key, value) :: rest =>
    (match other.child? (.key key) with
    | some counterpart => sharedParts (place ++ [.key key]) value counterpart
    | none => []) ++ sharedFields place rest other

end

end Value

end Conform
