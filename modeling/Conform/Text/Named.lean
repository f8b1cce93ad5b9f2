import Conform.Text.Age
import Conform.Text.Segmentation

/-!
# Sets of characters by name

A name stands for a property that holds of some characters, for a category or for a
script, in this order. A name with a value stands for one class of a property that
classes all characters. Case, blanks, hyphens and underscores in names do not matter,
nor does a leading `is`.
-/

namespace Conform.CharSet

/-- A name without what does not matter in it. -/
def normalName (name : List Char) : String :=
  let significant (name : List Char) : List Char :=
    (name.filter (fun character =>
      character.toNat < 0x80 && character != ' ' && character != '_' && character != '-')).map
        Char.toLower
  match name with
  | first :: second :: rest =>
    if first.toLower = 'i' ∧ second.toLower = 's' then
      -- The one name that begins so is kept apart from the category of one letter.
      if significant rest = ['c'] then "isc" else String.ofList (significant rest)
    else String.ofList (significant name)
  | _ => String.ofList (significant name)

/-- The properties that hold of some characters, with their names. -/
def properties : List (List String × CharSet) :=
  [(["ahex", "asciihexdigit"], Property.asciiHexDigit),
    (["alpha", "alphabetic"], Property.alphabetic),
    (["bidic", "bidicontrol"], Property.bidiControl),
    (["bidim", "bidimirrored"], Property.bidiMirrored),
    (["caseignorable", "ci"], Property.caseIgnorable), (["cased"], Property.cased),
    (["changeswhencasefolded", "cwcf"], Property.changesWhenCasefolded),
    (["changeswhencasemapped", "cwcm"], Property.changesWhenCasemapped),
    (["changeswhenlowercased", "cwl"], Property.changesWhenLowercased),
    (["changeswhentitlecased", "cwt"], Property.changesWhenTitlecased),
    (["changeswhenuppercased", "cwu"], Property.changesWhenUppercased), (["dash"], Property.dash),
    (["defaultignorablecodepoint", "di"], Property.defaultIgnorable),
    (["dep", "deprecated"], Property.deprecated), (["dia", "diacritic"], Property.diacritic),
    (["emoji"], Property.emoji), (["ecomp", "emojicomponent"], Property.emojiComponent),
    (["emod", "emojimodifier"], Property.emojiModifier),
    (["ebase", "emojimodifierbase"], Property.emojiModifierBase),
    (["emojipresentation", "epres"], Property.emojiPresentation),
    (["extendedpictographic", "extpict"], Property.extendedPictographic),
    (["ext", "extender"], Property.extender), (["graphemebase", "grbase"], Property.graphemeBase),
    (["graphemeextend", "grext"], Property.graphemeExtend),
    (["graphemelink", "grlink"], Property.graphemeLink), (["hex", "hexdigit"], Property.hexDigit),
    (["hyphen"], Property.hyphen), (["idsb", "idsbinaryoperator"], Property.idsBinaryOperator),
    (["idst", "idstrinaryoperator"], Property.idsTrinaryOperator),
    (["idsu", "idsunaryoperator"], Property.idsUnaryOperator),
    (["idcompatmathcontinue"], Property.idCompatMathContinue),
    (["idcompatmathstart"], Property.idCompatMathStart),
    (["idc", "idcontinue"], Property.idContinue), (["ids", "idstart"], Property.idStart),
    (["ideo", "ideographic"], Property.ideographic),
    (["joinc", "joincontrol"], Property.joinControl),
    (["loe", "logicalorderexception"], Property.logicalOrderException),
    (["lower", "lowercase"], Property.lowercase), (["math"], Property.math),
    (["mcm", "modifiercombiningmark"], Property.modifierCombiningMark),
    (["nchar", "noncharactercodepoint"], Property.noncharacter),
    (["oalpha", "otheralphabetic"], Property.otherAlphabetic),
    (["odi", "otherdefaultignorablecodepoint"], Property.otherDefaultIgnorable),
    (["ogrext", "othergraphemeextend"], Property.otherGraphemeExtend),
    (["oidc", "otheridcontinue"], Property.otherIdContinue),
    (["oids", "otheridstart"], Property.otherIdStart),
    (["olower", "otherlowercase"], Property.otherLowercase),
    (["omath", "othermath"], Property.otherMath),
    (["otheruppercase", "oupper"], Property.otherUppercase),
    (["patsyn", "patternsyntax"], Property.patternSyntax),
    (["patternwhitespace", "patws"], Property.patternWhiteSpace),
    (["pcm", "prependedconcatenationmark"], Property.prependedConcatenationMark),
    (["qmark", "quotationmark"], Property.quotationMark), (["radical"], Property.radical),
    (["regionalindicator", "ri"], Property.regionalIndicator),
    (["sentenceterminal", "sterm"], Property.sentenceTerminal),
    (["sd", "softdotted"], Property.softDotted),
    (["term", "terminalpunctuation"], Property.terminalPunctuation),
    (["uideo", "unifiedideograph"], Property.unifiedIdeograph),
    (["upper", "uppercase"], Property.uppercase),
    (["variationselector", "vs"], Property.variationSelector),
    (["space", "whitespace", "wspace"], Property.whiteSpace),
    (["xidc", "xidcontinue"], Property.xidContinue), (["xids", "xidstart"], Property.xidStart)]

/-- The categories with their names. -/
def categories : List (List String × CharSet) :=
  [(["any"], .all), (["assigned"], Category.unassigned.compl), (["ascii"], .span 0 0x7f),
    (["c", "other"], Category.other), (["cc", "cntrl", "control"], Category.control),
    (["cf", "format"], Category.format), (["cn", "unassigned"], Category.unassigned),
    (["co", "privateuse"], Category.privateUse), (["l", "letter"], Category.letter),
    (["casedletter", "lc"], Category.casedLetter),
    (["ll", "lowercaseletter"], Category.lowercaseLetter),
    (["lm", "modifierletter"], Category.modifierLetter),
    (["lo", "otherletter"], Category.otherLetter),
    (["lt", "titlecaseletter"], Category.titlecaseLetter),
    (["lu", "uppercaseletter"], Category.uppercaseLetter),
    (["combiningmark", "m", "mark"], Category.mark), (["mc", "spacingmark"], Category.spacingMark),
    (["enclosingmark", "me"], Category.enclosingMark),
    (["mn", "nonspacingmark"], Category.nonspacingMark), (["n", "number"], Category.number),
    (["decimalnumber", "digit", "nd"], Category.decimalNumber),
    (["letternumber", "nl"], Category.letterNumber), (["no", "othernumber"], Category.otherNumber),
    (["p", "punct", "punctuation"], Category.punctuation),
    (["connectorpunctuation", "pc"], Category.connectorPunctuation),
    (["dashpunctuation", "pd"], Category.dashPunctuation),
    (["closepunctuation", "pe"], Category.closePunctuation),
    (["finalpunctuation", "pf"], Category.finalPunctuation),
    (["initialpunctuation", "pi"], Category.initialPunctuation),
    (["otherpunctuation", "po"], Category.otherPunctuation),
    (["openpunctuation", "ps"], Category.openPunctuation), (["s", "symbol"], Category.symbol),
    (["currencysymbol", "sc"], Category.currencySymbol),
    (["modifiersymbol", "sk"], Category.modifierSymbol),
    (["mathsymbol", "sm"], Category.mathSymbol), (["othersymbol", "so"], Category.otherSymbol),
    (["separator", "z"], Category.separator), (["lineseparator", "zl"], Category.lineSeparator),
    (["paragraphseparator", "zp"], Category.paragraphSeparator),
    (["spaceseparator", "zs"], Category.spaceSeparator)]

/-- The set with a name in a list. -/
def named? (sets : List (List String × CharSet)) (name : String) : Option CharSet :=
  (sets.find? (fun (names, _) => names.contains name)).map Prod.snd

/-- The set that a name stands for. -/
def ofName? (name : List Char) : Option CharSet :=
  let name := normalName name
  match named? properties name with
  | some set => some set
  | none =>
    match named? categories name with
    | some set => some set
    | none => (Script.ofName? name).map Script.members

/-- The set that a name with a value stands for. -/
def ofNameAndValue? (name value : List Char) : Option CharSet :=
  let name := normalName name
  let value := normalName value
  if name = "gc" ∨ name = "generalcategory" then named? categories value
  else if name = "sc" ∨ name = "script" then (Script.ofName? value).map Script.members
  else if name = "scx" ∨ name = "scriptextensions" then
    (Script.ofName? value).map Script.extension
  else if name = "age" then Age.upTo? value
  else if name = "gcb" ∨ name = "graphemeclusterbreak" then
    named? Segmentation.graphemeClasses value
  else if name = "wb" ∨ name = "wordbreak" then named? Segmentation.wordClasses value
  else if name = "sb" ∨ name = "sentencebreak" then named? Segmentation.sentenceClasses value
  else none

end Conform.CharSet
