import Conform.Fault
import Conform.Text.Calendar
import Conform.Validator.Basic

/-!
# String formats

A format is a validator under a name. A name is registered once; the built-in formats
are dates, date-times and a rough check of URIs.
-/

namespace Conform

/-- The validators registered as formats. -/
abbrev Formats :=
  Fields Validator

namespace Formats

/-- What a URI may begin with. -/
def uriSchemes : List String :=
  ["http://", "https://", "mailto:", "tel:", "urn:"]

/-- Whether the text begins with a known scheme and goes on. -/
def looksLikeUri (text : String) : Bool :=
  uriSchemes.any (fun scheme =>
    scheme.utf8ByteSize < text.utf8ByteSize && text.startsWith scheme)

/-- The built-in formats. -/
def builtin : Formats :=
  [("date-time", .textForm "RFC 3339 date-time" Calendar.isDateTime),
    ("date", .textForm "YYYY-MM-DD date" Calendar.isDate),
    ("uri", .textForm "URI" looksLikeUri)]

/-- Registers a format under a name that is free. -/
def register (formats : Formats) (name : String) (validator : Validator) :
    Except Fault Formats :=
  if formats.has name then .error (.duplicateFormat name)
  else .ok (formats.insert name validator)

end Formats

end Conform
