import Conform.Validator.Scalar

/-!
# Running validators

A run is a pure function of the validator, the options, the value and its surroundings:
the validators bound to names, the parts already built, and the formats. It nests calls
up to a bound. It has no verdict when the bound is reached, when it needs a name that is
not bound, or when it needs a part that is not built; what is missing can be supplied
and the run repeated. Containers that are accepted have new contents, whose identities
are parts of the place given.
-/

namespace Conform

/-- Why a run has no verdict. -/
inductive Stop where
  /-- Calls nest too deeply. -/
  | exhausted
  /-- The name has no validator yet. -/
  | unbound (ref : NamedRef)
  /-- The part is not built yet. -/
  | unbuilt (cell : Nat)

/-- What a run looks up. -/
structure Surroundings where
  /-- The validators bound to names. -/
  bound : NamedRef → Option Validator
  /-- The parts that are built. -/
  built : Nat → Bool
  /-- The formats by name. -/
  format : String → Option Validator

/-- A verdict, or why there is none. -/
abbrev Attempt :=
  Except Stop Verdict

/-- Several results, the violations that stand in their way, or why there is neither. -/
abbrev Attempts (α : Type) :=
  Except Stop (Except (List Violation) α)

namespace Validator

/-! ## Parts of containers -/

/-- Checks items in order up to the first refusal. -/
def checkItems (check : Nat → Value → Attempt) : Nat → List Value → Attempts (List Value)
  | _, [] => .ok (.ok [])
  | index, item :: rest =>
    match check index item with
    | .error stop => .error stop
    | .ok (.rejected violations) =>
      .ok (.error (violations.map (Violation.under (Violation.indexSegment index))))
    | .ok (.accepted answer) =>
      match checkItems check (index + 1) rest with
      | .error stop => .error stop
      | .ok (.error violations) => .ok (.error violations)
      | .ok (.ok answers) => .ok (.ok (answer :: answers))

/-- The items that an array check looks at. -/
def itemsOf? (options : Options) : Value → Option (List Value)
  | .array _ items _ => some items
  | .bool value => if options.allowConvertForArrayType then some [.bool value] else none
  | .number value => if options.allowConvertForArrayType then some [.number value] else none
  | .string value => if options.allowConvertForArrayType then some [.string value] else none
  | _ => none

/-- The reason why a count of items is out of bounds. -/
def countReason? (minItems maxItems : Option Nat) (count : Nat) : Option Reason :=
  let few : Option Reason := match minItems with
    | some least => if count < least then some (.tooFew least) else none
    | none => none
  few.orElse fun _ =>
    match maxItems with
    | some most => if most < count then some (.tooMany most) else none
    | none => none

/-- The check of an array. -/
def checkArray (check : Nat → Value → Attempt) (minItems maxItems : Option Nat)
    (tag : Option Schema) (options : Options) (place : Identity) (value : Value) : Attempt :=
  match itemsOf? options value with
  | none => .ok (.refuse (.expected "array" value.kind))
  | some items =>
    match countReason? minItems maxItems items.length with
    | some reason => .ok (.refuse reason)
    | none =>
      match checkItems check 0 items with
      | .error stop => .error stop
      | .ok (.error violations) => .ok (.rejected violations)
      | .ok (.ok answers) => .ok (.accepted (.array place answers (value.tags.merge tag.toList)))

/-- Keys that no object may have. -/
def forbiddenKeys : List String :=
  ["__proto__", "constructor"]

/-- The key under which a property is read. -/
def readKey {α : Type} (wire : Bool) (property : Property α) : String :=
  match property.wireName with
  | some name => if wire then name else property.name
  | none => property.name

/-- Checks declared properties in the given order up to the first refusal; `answers`
holds those accepted so far. -/
def checkProperties (check : Nat → Validator → Value → Attempt) (wire : Bool)
    (properties : List (Property Validator)) (fields : Fields Value) :
    List Nat → Fields Value → Attempts (Fields Value)
  | [], answers => .ok (.ok answers)
  | index :: rest, answers =>
    match properties[index]? with
    | none => checkProperties check wire properties fields rest answers
    | some property =>
      let value := (Fields.get? (readKey wire property) fields).getD .undefined
      if value.isUndefined then
        if property.required then .ok (.error [.single [property.name] .missingProperty])
        else checkProperties check wire properties fields rest answers
      else
        match check index property.body value with
        | .error stop => .error stop
        | .ok (.rejected violations) =>
          .ok (.error (violations.map (Violation.under property.name)))
        | .ok (.accepted answer) =>
          checkProperties check wire properties fields rest (answers.insert property.name answer)

/-- The accepted properties in the order of declaration. -/
def declaredFields (properties : List (Property Validator)) (answers : Fields Value) :
    Fields Value :=
  properties.filterMap (fun property =>
    (Fields.get? property.name answers).map (fun answer => (property.name, answer)))

/-- Checks the remaining fields in the order of the input up to the first refusal. -/
def checkExtras (check : Nat → Validator → Value → Attempt) (drop : Bool)
    (skip : String → Bool) (additional : Additional Validator) :
    Nat → Fields Value → Attempts (Fields Value)
  | _, [] => .ok (.ok [])
  | index, (key, value) :: rest =>
    let others := checkExtras check drop skip additional (index + 1) rest
    if skip key || value.isUndefined then others
    else
      match additional with
      | .keep =>
        match others with
        | .error stop => .error stop
        | .ok (.error violations) => .ok (.error violations)
        | .ok (.ok answers) => .ok (.ok ((key, value) :: answers))
      | .deny => if drop then others else .ok (.error [.single [key] .unexpectedProperty])
      | .each inner =>
        match check index inner value with
        | .error stop => .error stop
        | .ok (.rejected violations) => .ok (.error (violations.map (Violation.under key)))
        | .ok (.accepted answer) =>
          match others with
          | .error stop => .error stop
          | .ok (.error violations) => .ok (.error violations)
          | .ok (.ok answers) => .ok (.ok ((key, answer) :: answers))

/-- Whether a key was read by one of the checks or belongs to a declared property. -/
def isDeclaredKey (wire : Bool) (properties : List (Property Validator)) (order : List Nat)
    (key : String) : Bool :=
  (order.filterMap (fun index => properties[index]?)).any
      (fun property => readKey wire property = key) ||
    properties.any (fun property => property.name = key)

/-- The check of an object. Wire names are read when the options say so and the value
does not carry the tag yet. -/
def checkObject (checkProperty checkExtra : Nat → Validator → Value → Attempt)
    (properties : List (Property Validator)) (order : List Nat)
    (additional : Additional Validator) (tag : Schema) (options : Options) (place : Identity)
    (value : Value) : Attempt :=
  match value with
  | .object _ fields tags =>
    match fields.find? (fun entry => forbiddenKeys.contains entry.1) with
    | some (key, _) => .ok (.refuseAt key .forbiddenField)
    | none =>
      let wire := options.convertFromNetwork && !tags.has tag
      match checkProperties checkProperty wire properties fields order [] with
      | .error stop => .error stop
      | .ok (.error violations) => .ok (.rejected violations)
      | .ok (.ok answers) =>
        match checkExtras checkExtra (options.unknownField = .drop)
            (isDeclaredKey wire properties order) additional 0 fields with
        | .error stop => .error stop
        | .ok (.error violations) => .ok (.rejected violations)
        | .ok (.ok extras) =>
          .ok (.accepted (.object place (declaredFields properties answers ++ extras)
            (tags.insert tag)))
  | other => .ok (.refuse (.expected "object" other.kind))

/-! ## Options and components -/

/-- What trying every option found: the accepting options that are preferred, the other
accepting ones, each counted from one with its answer, and the refusals. -/
structure Trial where
  preferred : List (Nat × Value)
  matched : List (Nat × Value)
  failures : List Violation

/-- Whether an option that accepts is preferred: it stands for a name that the value
carries already, and hands the value back as it came. -/
def isPreferred (option : Validator) (value answer : Value) : Bool :=
  match option.name? with
  | some ref => value.hasTag (.named ref) && answer.eq value
  | none => false

/-- Tries every option, counting from `position`. -/
def tryOptions (check : Nat → Validator → Attempt) (value : Value) :
    Nat → List Validator → Except Stop Trial
  | _, [] => .ok ⟨[], [], []⟩
  | position, option :: rest =>
    match check position option with
    | .error stop => .error stop
    | .ok verdict =>
      match tryOptions check value (position + 1) rest with
      | .error stop => .error stop
      | .ok trial =>
        match verdict with
        | .accepted answer =>
          if isPreferred option value answer then
            .ok { trial with preferred := (position, answer) :: trial.preferred }
          else .ok { trial with matched := (position, answer) :: trial.matched }
        | .rejected violations =>
          .ok { trial with failures := .group [] (.option position) violations :: trial.failures }

/-- The verdict of a trial: one preferred match wins, else one match has to be alone. -/
def Trial.verdict (trial : Trial) : Verdict :=
  match trial.preferred with
  | [(_, answer)] => .accepted answer
  | _ :: _ :: _ => .refuse (.manyPreferred (trial.preferred.map Prod.fst))
  | [] =>
    match trial.matched with
    | [(_, answer)] => .accepted answer
    | _ :: _ :: _ => .refuse (.manyOptions (trial.matched.map Prod.fst))
    | [] => .rejected [.group [] .noOption trial.failures]

/-- The check that exactly one option accepts. -/
def checkOneOf (check : Nat → Validator → Attempt) (options : List Validator) (value : Value) :
    Attempt :=
  match tryOptions check value 1 options with
  | .error stop => .error stop
  | .ok trial => .ok trial.verdict

/-- Passes the value through the components, counting from `position`, and gives the last
answer the tags of all answers. -/
def checkComponents (check : Nat → Validator → Value → Attempt) :
    Nat → List Validator → Value → Tags → Attempt
  | _, [], value, tags => .ok (.accepted (value.withTags tags))
  | position, component :: rest, value, tags =>
    match check position component value with
    | .error stop => .error stop
    | .ok (.accepted answer) =>
      checkComponents check (position + 1) rest answer (tags.merge answer.tags)
    | .ok (.rejected violations) =>
      .ok (.rejected [.group [] (.component position) violations])

/-- The key that a discriminator reads: the wire name when wire names are read and the
value carries none of the variants as a tag. -/
def dispatchKey (discriminator : Discriminator) (variants : List Schema) (options : Options)
    (tags : Tags) : String :=
  match discriminator.wireKey with
  | some wireKey =>
    if options.convertFromNetwork && !variants.any (fun variant => tags.has variant) then wireKey
    else discriminator.key
  | none => discriminator.key

/-- The words for what a discriminator's property holds. -/
def foundText (found : Value) : String :=
  match found.literal? with
  | some literal => literal.text
  | none => found.kind.name

/-- The option that the discriminator selects for the value found at its key. -/
def selected? (discriminator : Discriminator) (options : List Validator) (found : Value) :
    Option Validator :=
  (found.literal?.bind discriminator.variantOf?).bind (fun index => options[index]?)

/-- The options that the discriminator leaves aside. -/
def undecided (discriminator : Discriminator) (options : List Validator) : List Validator :=
  discriminator.rest.filterMap (fun index => options[index]?)

/-- The check of a union with a discriminator: the selected option alone is run, and
without one the options left aside are tried. -/
def checkDispatch (check : Validator → Attempt) (discriminator : Discriminator)
    (variants : List Schema) (choices : List Validator) (options : Options) (value : Value) :
    Attempt :=
  match value with
  | .object _ fields tags =>
    let found := (Fields.get? (dispatchKey discriminator variants options tags) fields).getD
      .undefined
    match selected? discriminator choices found with
    | some choice => check choice
    | none =>
      if discriminator.rest.isEmpty then
        .ok (.refuseAt discriminator.key
          (.badDiscriminator discriminator.key (foundText found) discriminator.literals))
      else check (.oneOf (undecided discriminator choices))
  | other =>
    if discriminator.rest.isEmpty then .ok (.refuse (.expected "object" other.kind))
    else check (.oneOf (undecided discriminator choices))

/-! ## Strings -/

/-- The check of a string: length and literals, then the format, whose answer replaces
the string, then the pattern. -/
def checkString (format : String → Option Validator) (check : Validator → Attempt)
    (rules : StringRules) (value : Value) : Attempt :=
  match value with
  | .string text =>
    match textReason? rules text with
    | some reason => .ok (.refuse reason)
    | none =>
      match rules.format with
      | none => .ok (.unless (patternReason? rules text) value)
      | some name =>
        match format name with
        | none => .ok (.refuse (.unknownFormat name))
        | some inner =>
          match check inner with
          | .error stop => .error stop
          | .ok (.rejected violations) =>
            .ok (.rejected [.group [] (.badFormat name) violations])
          | .ok (.accepted answer) =>
            .ok (.unless (patternReason? rules (answer.string?.getD text)) answer)
  | other => .ok (.refuse (.expected "string" other.kind))

/-! ## Runs -/

/-- Runs a validator with at most `fuel` nested calls. -/
def run (surroundings : Surroundings) :
    (fuel : Nat) → Validator → Options → Identity → Value → Attempt
  | 0, _, _, _, _ => .error .exhausted
  | fuel + 1, validator, options, place, value =>
    match validator with
    | .any => .ok (.accepted value)
    | .void =>
      match value with
      | .undefined => .ok (.accepted .undefined)
      | other => .ok (.refuse (.expected "no value" other.kind))
    | .null =>
      match value with
      | .null => .ok (.accepted .null)
      | other => .ok (.refuse (.expected "null" other.kind))
    | .boolean rules => .ok (checkBoolean rules options value)
    | .number whole rules => .ok (checkNumber whole rules options value)
    | .string rules =>
      checkString surroundings.format
        (fun inner => run surroundings fuel inner options place value) rules value
    | .enumeration allowed => .ok (checkEnumeration allowed value)
    | .array items minItems maxItems tag =>
      checkArray (fun index item => run surroundings fuel items options (place.part index) item)
        minItems maxItems tag options place value
    | .object properties order additional tag =>
      checkObject
        (fun index inner item =>
          run surroundings fuel inner options ((place.part 0).part index) item)
        (fun index inner item =>
          run surroundings fuel inner options ((place.part 1).part index) item)
        properties order additional tag options place value
    | .oneOf choices =>
      checkOneOf
        (fun position inner => run surroundings fuel inner options (place.part position) value)
        choices value
    | .allOf components =>
      checkComponents
        (fun position inner item => run surroundings fuel inner options (place.part position) item)
        1 components value []
    | .dispatch discriminator variants choices =>
      checkDispatch (fun inner => run surroundings fuel inner options place value)
        discriminator variants choices options value
    | .optional inner =>
      match value with
      | .undefined => .ok (.accepted .undefined)
      | other => run surroundings fuel inner options place other
    | .nullable inner =>
      match value with
      | .null => .ok (.accepted .null)
      | other => run surroundings fuel inner options place other
    | .tagged inner tag =>
      match run surroundings fuel inner options place value with
      | .error stop => .error stop
      | .ok verdict => .ok (verdict.map (fun answer => answer.withTags [tag]))
    | .labelled _ inner => run surroundings fuel inner options place value
    | .reference ref =>
      match surroundings.bound ref with
      | some inner => run surroundings fuel inner options place value
      | none => .error (.unbound ref)
    | .onDemand cell inner =>
      if surroundings.built cell then run surroundings fuel inner options place value
      else .error (.unbuilt cell)
    | .custom check => .ok (check options value)

end Validator

end Conform
