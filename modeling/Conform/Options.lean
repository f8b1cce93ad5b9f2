/-!
# Validation options

How lenient a validation is. Nothing is lenient unless asked for.
-/

namespace Conform

/-- What becomes of a property that an object does not allow. -/
inductive UnknownField where
  /-- The object is refused. -/
  | fail
  /-- The property is left out. -/
  | drop
  deriving DecidableEq, Repr

/-- The options of one validation. -/
structure Options where
  /-- What becomes of properties that are not allowed. -/
  unknownField : UnknownField := .fail
  /-- Strings are read where numbers are expected. -/
  parseNumericStrings : Bool := false
  /-- The strings `true` and `false` are read where truth values are expected. -/
  parseBooleanStrings : Bool := false
  /-- A lone scalar is taken for an array of one item. -/
  allowConvertForArrayType : Bool := false
  /-- Properties are read by their wire names. -/
  convertFromNetwork : Bool := false
  deriving DecidableEq, Repr

namespace Options

/-- Nothing lenient. -/
def strict : Options :=
  {}

/-- For parameters, where every scalar is a string and a list of one is not marked. -/
def forParameters : Options :=
  { parseNumericStrings := true, parseBooleanStrings := true, allowConvertForArrayType := true }

/-- For values that arrive by their wire names. -/
def fromNetwork : Options :=
  { convertFromNetwork := true }

end Options

end Conform
