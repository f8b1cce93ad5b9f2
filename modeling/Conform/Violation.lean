import Conform.Value.Basic

/-!
# Violations

Why a value was refused: a place below the value, a reason, and for a reason that
gathers several attempts the violations of each. The wording of every reason is in one
function, and so is the layout of a violation as lines.
-/

namespace Conform

/-- Why something was refused. -/
inductive Reason where
  /-- Another kind of value was expected. -/
  | expected (what : String) (found : Value.Kind)
  /-- A whole number was expected. -/
  | fraction (found : Binary64)
  /-- The value is none of the literals. -/
  | notAllowed (allowed : List Literal)
  | below (minimum : Binary64)
  | above (maximum : Binary64)
  | notAbove (minimum : Binary64)
  | notBelow (maximum : Binary64)
  | tooShort (least : Nat)
  | tooLong (most : Nat)
  | tooFew (least : Nat)
  | tooMany (most : Nat)
  | unknownFormat (name : String)
  /-- The format with this name refused the string. -/
  | badFormat (name : String)
  | noMatch (pattern : String)
  /-- The text has not the form described. -/
  | malformed (form : String)
  | forbiddenField
  | missingProperty
  | unexpectedProperty
  /-- Several preferred options accept; they are counted from one. -/
  | manyPreferred (options : List Nat)
  /-- Several options accept; they are counted from one. -/
  | manyOptions (options : List Nat)
  /-- No option accepts. -/
  | noOption
  /-- An option, counted from one, refused. -/
  | option (number : Nat)
  /-- A component, counted from one, refused. -/
  | component (number : Nat)
  /-- The property that selects an option holds none of its literals. -/
  | badDiscriminator (key found : String) (allowed : List Literal)
  /-- A reason in other words. -/
  | other (text : String)

namespace Reason

/-- Numbers of options as a message shows them. -/
def optionList (options : List Nat) : String :=
  "options " ++ String.intercalate ", " (options.map (fun number => toString number))

/-- A binary64 number as a message shows it. -/
def numberText (value : Binary64) : String :=
  value.text Number.messageStyle

/-- The wording of a reason. -/
def text : Reason → String
  | .expected what found => "expected " ++ what ++ ", got " ++ found.name
  | .fraction found => "expected integer, got " ++ numberText found
  | .notAllowed allowed => "must be one of " ++ Literal.listText allowed
  | .below minimum => "must be >= " ++ numberText minimum
  | .above maximum => "must be <= " ++ numberText maximum
  | .notAbove minimum => "must be > " ++ numberText minimum
  | .notBelow maximum => "must be < " ++ numberText maximum
  | .tooShort least => "must be at least " ++ toString least ++ " characters long"
  | .tooLong most => "must be at most " ++ toString most ++ " characters long"
  | .tooFew least => "must have at least " ++ toString least ++ " items"
  | .tooMany most => "must have at most " ++ toString most ++ " items"
  | .unknownFormat name => "unknown format '" ++ name ++ "'"
  | .badFormat name => "not a valid " ++ name
  | .noMatch pattern => "does not match pattern /" ++ pattern ++ "/"
  | .malformed form => "expected " ++ form
  | .forbiddenField => "forbidden field name"
  | .missingProperty => "missing required property"
  | .unexpectedProperty => "unexpected property"
  | .manyPreferred options => "multiple preferred options match (" ++ optionList options ++ ")"
  | .manyOptions options => "multiple options match (" ++ optionList options ++ ")"
  | .noOption => "no option of oneOf matched"
  | .option number => "option " ++ toString number
  | .component number => "allOf component " ++ toString number ++ " failed"
  | .badDiscriminator key found allowed =>
    "invalid value for discriminator '" ++ key ++ "': got " ++ found ++ ", expected one of " ++
      Literal.listText allowed
  | .other text => text

end Reason

/-- A refusal: the place below the value, outermost segment first, and the reason; a
group has the violations behind it. -/
inductive Violation where
  | single (path : List String) (reason : Reason)
  | group (path : List String) (reason : Reason) (causes : List Violation)

namespace Violation

/-- A violation at the value itself. -/
def here (reason : Reason) : Violation :=
  .single [] reason

/-- The place below the value. -/
def path : Violation → List String
  | .single path _ => path
  | .group path _ _ => path

/-- The reason. -/
def reason : Violation → Reason
  | .single _ reason => reason
  | .group _ reason _ => reason

/-- The violations behind a group. -/
def causes : Violation → List Violation
  | .single _ _ => []
  | .group _ _ causes => causes

/-- The violation seen from one step further out. -/
def under (segment : String) : Violation → Violation
  | .single path reason => .single (segment :: path) reason
  | .group path reason causes => .group (segment :: path) reason causes

/-- The segment for an array index. -/
def indexSegment (index : Nat) : String :=
  "[" ++ toString index ++ "]"

/-- A place as text: segments joined by points, none in front of an index. -/
def placeText (path : List String) : String :=
  path.foldl (fun text segment =>
    if text.isEmpty || segment.startsWith "[" then text ++ segment
    else text ++ "." ++ segment) ""

/-- The place in front of a message. -/
def heading (path : List String) : String :=
  if path = [] then "" else placeText path ++ ": "

/-- A group whose only cause has no causes of its own is shown on one line. -/
def lone? : List Violation → Option Violation
  | [only] => if only.causes.isEmpty then some only else none
  | _ => none

mutual

/-- The lines of a violation, indented by its depth, with a bullet below the top. -/
def lines (depth : Nat) (bullet : Bool) : Violation → List String
  | .single path reason =>
    ["".pushn ' ' (2 * depth) ++ (if bullet then "- " else "") ++ heading path ++ reason.text]
  | .group path reason causes =>
    let start :=
      "".pushn ' ' (2 * depth) ++ (if bullet then "- " else "") ++ heading path ++ reason.text
    match lone? causes with
    | some only => [start ++ ": " ++ heading only.path ++ only.reason.text]
    | none => start :: linesOf (depth + 1) causes

/-- The lines of the violations behind a group. -/
def linesOf (depth : Nat) : List Violation → List String
  | [] => []
  | first :: rest => lines depth true first ++ linesOf depth rest

end

/-- A violation as text. -/
def text (violation : Violation) : String :=
  String.intercalate "\n" (violation.lines 0 false)

/-- The violations of a failed validation as one text. -/
def failureText (violations : List Violation) : String :=
  "validation failed:\n" ++ String.intercalate "\n" (violations.map text)

end Violation

/-- The outcome of a validation: a value, or the reasons why there is none. -/
inductive Verdict where
  | accepted (value : Value)
  | rejected (violations : List Violation)

namespace Verdict

/-- A refusal for one reason at the value itself. -/
def refuse (reason : Reason) : Verdict :=
  .rejected [.here reason]

/-- A refusal for one reason at a property. -/
def refuseAt (key : String) (reason : Reason) : Verdict :=
  .rejected [.single [key] reason]

/-- Whether a value was accepted. -/
def isAccepted : Verdict → Bool
  | .accepted _ => true
  | .rejected _ => false

/-- The accepted value. -/
def value? : Verdict → Option Value
  | .accepted value => some value
  | .rejected _ => none

/-- Continues with an accepted value. -/
def andThen (verdict : Verdict) (next : Value → Verdict) : Verdict :=
  match verdict with
  | .accepted value => next value
  | .rejected violations => .rejected violations

/-- Changes an accepted value. -/
def map (verdict : Verdict) (change : Value → Value) : Verdict :=
  verdict.andThen (fun value => .accepted (change value))

/-- The verdict seen from one step further out. -/
def under (segment : String) : Verdict → Verdict
  | .accepted value => .accepted value
  | .rejected violations => .rejected (violations.map (Violation.under segment))

/-- The accepted value, or what is made of the violations. -/
def valueOr (verdict : Verdict) (handler : List Violation → Value) : Value :=
  match verdict with
  | .accepted value => value
  | .rejected violations => handler violations

end Verdict

end Conform
