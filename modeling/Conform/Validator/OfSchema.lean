import Conform.Validator.Basic
import Conform.Validator.Order

/-!
# Validators of schemas

Every node becomes the validator of its kind, in the light of the definitions at that
moment: they decide the order of checks and the discriminators of unions. Names are not
entered; they are looked up when the validator runs.
-/

namespace Conform

namespace Validator

/-- The validator of a union from those of its options: by discriminator if there is one,
else by trial. -/
def ofUnion (definitions : Definitions) (variants : List Schema) (options : List Validator) :
    Validator :=
  match Discriminator.find? definitions variants with
  | some discriminator => .dispatch discriminator variants options
  | none => .oneOf options

end Validator

namespace Schema

mutual

/-- The validator of a schema. -/
def validator (definitions : Definitions) : Schema → Validator
  | .unknown => .any
  | .void => .void
  | .null => .null
  | .boolean _ rules => .boolean rules
  | .integer _ rules => .number true rules
  | .number _ rules => .number false rules
  | .string _ rules => .string rules
  | .array node items minItems maxItems =>
    .array (validator definitions items) minItems maxItems
      (some (.array node items minItems maxItems))
  | .object node properties additional =>
    .object (propertyValidators definitions properties)
      (Property.checkOrder definitions properties [])
      (additionalValidator definitions additional) (.object node properties additional)
  | .union _ options => .ofUnion definitions options (validators definitions options)
  | .intersection _ components => .allOf (validators definitions components)
  | .named ref => .reference ref

/-- The validators of schemas in order. -/
def validators (definitions : Definitions) : List Schema → List Validator
  | [] => []
  | first :: rest => validator definitions first :: validators definitions rest

/-- The declared properties with validators. -/
def propertyValidators (definitions : Definitions) :
    List (Property Schema) → List (Property Validator)
  | [] => []
  | ⟨name, required, wireName, body⟩ :: rest =>
    ⟨name, required, wireName, validator definitions body⟩ :: propertyValidators definitions rest

/-- What becomes of other properties, with a validator. -/
def additionalValidator (definitions : Definitions) : Additional Schema → Additional Validator
  | .keep => .keep
  | .deny => .deny
  | .each body => .each (validator definitions body)

end

end Schema

namespace Validator

/-- The validator of an object with a tag of its own and names to check first. -/
def ofObject (definitions : Definitions) (properties : List (Property Schema))
    (additional : Additional Schema) (names : List String) (tag : Schema) : Validator :=
  .object (Schema.propertyValidators definitions properties)
    (Property.checkOrder definitions properties names)
    (Schema.additionalValidator definitions additional) tag

/-- The validator of a name by its definition; what it accepts is tagged with the name. -/
def ofName (definitions : Definitions) (ref : NamedRef) : Validator :=
  .labelled ref (match definitions ref with
    | .object _ properties additional =>
      .ofObject definitions properties additional [] (.named ref)
    | .array _ items minItems maxItems =>
      .array (items.validator definitions) minItems maxItems (some (.named ref))
    | other => .tagged (other.validator definitions) (.named ref))

end Validator

end Conform
