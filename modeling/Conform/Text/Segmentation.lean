import Conform.Text.Property
import Conform.Text.Script

/-!
# Classes of characters for segmentation

Three properties class the characters by how a text breaks into graphemes, words and
sentences. Each is a list of classes with their names; the names are in lower case and
without separators.
-/

namespace Conform.Segmentation

/-- A class of characters with its names. -/
abbrev Class :=
  List String × CharSet

/-- The carriage return. -/
def carriageReturn : CharSet :=
  .single 0xd

/-- The line feed. -/
def lineFeed : CharSet :=
  .single 0xa

/-- The joiner. -/
def joiner : CharSet :=
  .single 0x200d

/-! ## Graphemes -/

/-- Controls that are graphemes of their own. -/
def graphemeControl : CharSet :=
  .ofTable "0-9 b-c e-1f 7f-9f ad 61c 180e 200b 200e-200f 2028-202e 2060-206f feff fff0-fffb
    13430-1343f 1bca0-1bca3 1d173-1d17a e0000-e001f e0080-e00ff e01f0-e0fff"

/-- Characters that join the one behind them. -/
def prepend : CharSet :=
  .ofTable "600-605 6dd 70f 890-891 8e2 d4e 110bd 110cd 111c2-111c3 113d1 1193f 11941 11a3a
    11a84-11a89 11d46 11f02"

/-- Characters that join the one in front of them. -/
def graphemeExtend : CharSet :=
  .union Property.graphemeExtend Property.emojiModifier

/-- Marks with width that do not join the character in front of them. -/
def detachedMark : CharSet :=
  .ofTable "102b-102c 1038 1062-1064 1067-106d 1083 1087-108c 108f 109a-109c 1a61 1a63-1a64 aa7b
    aa7d 11720-11721"

/-- Marks with width that join the character in front of them. -/
def graphemeSpacingMark : CharSet :=
  .union (.diff Category.spacingMark (.union graphemeExtend detachedMark)) (.ofTable "e33 eb3")

/-- Leading consonants of syllables. -/
def leadingJamo : CharSet :=
  .ofTable "1100-115f a960-a97c"

/-- Vowels of syllables. -/
def vowelJamo : CharSet :=
  .ofTable "1160-11a7 d7b0-d7c6 16d63 16d67-16d6a"

/-- Trailing consonants of syllables. -/
def trailingJamo : CharSet :=
  .ofTable "11a8-11ff d7cb-d7fb"

/-- Syllables without a trailing consonant. -/
def openSyllable : CharSet :=
  .ofTable "ac00-d788/1c"

/-- Syllables with a trailing consonant. -/
def closedSyllable : CharSet :=
  .diff (.span 0xac00 0xd7a3) openSyllable

/-- The classes for graphemes. -/
def graphemeClasses : List Class :=
  [(["cr"], carriageReturn), (["lf"], lineFeed), (["cn", "control"], graphemeControl),
    (["ex", "extend"], graphemeExtend), (["zwj"], joiner),
    (["regionalindicator", "ri"], Property.regionalIndicator), (["pp", "prepend"], prepend),
    (["sm", "spacingmark"], graphemeSpacingMark), (["l"], leadingJamo), (["v"], vowelJamo),
    (["t"], trailingJamo), (["lv"], openSyllable), (["lvt"], closedSyllable)]

/-! ## Words -/

/-- Characters that extend the word in front of them. -/
def wordExtend : CharSet :=
  .unions [Property.graphemeExtend, Category.spacingMark, Property.emojiModifier]

/-- Line ends besides the carriage return and the line feed. -/
def newline : CharSet :=
  .ofTable "b-c 85 2028-2029"

/-- Format characters inside words. -/
def wordFormat : CharSet :=
  .ofTable "ad 61c 180e 200e-200f 202a-202e 2060-2064 2066-206f feff fff9-fffb 13430-1343f
    1bca0-1bca3 1d173-1d17a e0001"

/-- Letters of one script that form words. -/
def wordKatakana : CharSet :=
  .ofTable "3031-3035 309b-309c 30a0-30fa 30fc-30ff 31f0-31ff 32d0-32fe 3300-3357 ff66-ff9d
    1aff0-1aff3 1aff5-1affb 1affd-1affe 1b000 1b120-1b122 1b155 1b164-1b167"

/-- Letters of one script with quotes inside words. -/
def hebrewLetter : CharSet :=
  .ofTable "5d0-5ea 5ef-5f2 fb1d fb1f-fb28 fb2a-fb36 fb38-fb3c fb3e fb40-fb41 fb43-fb44
    fb46-fb4f"

/-- Letters whose words do not show by their characters. -/
def complexContext : CharSet :=
  .ofTable "e01-e30 e32-e33 e40-e46 e81-e82 e84 e86-e8a e8c-ea3 ea5 ea7-eb0 eb2-eb3 ebd ec0-ec4
    ec6 edc-edf 1000-102a 103f 1050-1055 105a-105d 1061 1065-1066 106e-1070 1075-1081 108e
    1780-17b3 17d7 17dc 1950-196d 1970-1974 1980-19ab 19b0-19c9 1a20-1a54 1aa7 3041-3096 309d-309f
    a9e0-a9e4 a9e6-a9ef a9fa-a9fe aa60-aa76 aa7a aa7e-aaaf aab1 aab5-aab6 aab9-aabd aac0 aac2
    aadb-aadd 11700-1171a 11740-11746 1b001-1b11f 1b132 1b150-1b152"

/-- Letters of words that are not alphabetic. -/
def letterBeside : CharSet :=
  .ofTable "2c2-2c5 2d2-2d7 2de-2df 2e5-2eb 2ed 2ef-2ff 55a-55c 55e 58a 5f3 70f a708-a716
    a720-a721 a789-a78a ab5b"

/-- Letters of words. -/
def wordLetter : CharSet :=
  .union letterBeside (.diff Property.alphabetic
    (.unions [Property.ideographic, wordKatakana, wordExtend, hebrewLetter, complexContext]))

/-- Characters between letters. -/
def midLetter : CharSet :=
  .ofTable "3a b7 387 55f 5f4 2027 fe13 fe55 ff1a"

/-- Characters between digits. -/
def midNumber : CharSet :=
  .ofTable "2c 3b 37e 589 60c-60d 66c 7f8 2044 fe50 fe54 ff0c ff1b"

/-- Characters between letters and between digits. -/
def midNumberLetter : CharSet :=
  .ofTable "2e 2018-2019 2024 fe52 ff07 ff0e"

/-- Signs of numbers that are no digits. -/
def numberBeside : CharSet :=
  .ofTable "600-605 66b-66c 6dd 890-891 8e2 19da 110bd 110cd"

/-- Digits and signs of numbers. -/
def numeric : CharSet :=
  .union Category.decimalNumber numberBeside

/-- Connectors of words. -/
def extendNumberLetter : CharSet :=
  .ofTable "5f 202f 203f-2040 2054 fe33-fe34 fe4d-fe4f ff3f"

/-- Spaces that stay together. -/
def wordSpace : CharSet :=
  .ofTable "20 1680 2000-2006 2008-200a 205f 3000"

/-- The classes for words. -/
def wordClasses : List Class :=
  [(["cr"], carriageReturn), (["lf"], lineFeed), (["newline", "nl"], newline),
    (["extend"], wordExtend), (["zwj"], joiner),
    (["regionalindicator", "ri"], Property.regionalIndicator), (["fo", "format"], wordFormat),
    (["ka", "katakana"], wordKatakana), (["hebrewletter", "hl"], hebrewLetter),
    (["aletter", "le"], wordLetter), (["singlequote", "sq"], .single 0x27),
    (["doublequote", "dq"], .single 0x22), (["midletter", "ml"], midLetter),
    (["midnum", "mn"], midNumber), (["mb", "midnumlet"], midNumberLetter),
    (["nu", "numeric"], numeric.diff midNumber), (["ex", "extendnumlet"], extendNumberLetter),
    (["wsegspace"], wordSpace)]

/-! ## Sentences -/

/-- Characters that extend the one in front of them. -/
def sentenceExtend : CharSet :=
  .unions [Property.graphemeExtend, Category.spacingMark, joiner]

/-- Ends of paragraphs. -/
def separator : CharSet :=
  .ofTable "85 2028-2029"

/-- Format characters inside sentences. -/
def sentenceFormat : CharSet :=
  .diff Category.format (.union sentenceExtend numberBeside)

/-- Blanks between sentences. -/
def space : CharSet :=
  .diff Property.whiteSpace (.unions [carriageReturn, lineFeed, separator])

/-- Small letters at which no sentence begins. -/
def lower : CharSet :=
  .diff Property.lowercase (.union Property.graphemeExtend (.ofTable "10d0-10fa 10fd-10ff"))

/-- Capital letters at which a sentence may begin. -/
def upper : CharSet :=
  .diff Property.capital (.ofTable "1c90-1cba 1cbd-1cbf")

/-- Letters without case for sentences. -/
def otherLetter : CharSet :=
  .diff (.union Property.alphabetic (.single 0x5f3))
    (.unions [lower, upper, sentenceExtend])

/-- Full stops, which need not end a sentence. -/
def ambiguousEnd : CharSet :=
  .ofTable "2e 2024 fe52 ff0e"

/-- Characters after which a sentence goes on. -/
def continues : CharSet :=
  .ofTable "2c-2d 3a-3b 37e 55d 60c-60d 7f8 1802 1808 2013-2014 3001 fe10-fe11
    fe13-fe14 fe31-fe32 fe50-fe51 fe54-fe55 fe58 fe63 ff0c-ff0d ff1a-ff1b ff64"

/-- Ends of sentences. -/
def sentenceEnd : CharSet :=
  Property.sentenceTerminal.diff ambiguousEnd

/-- Further characters that may follow the end of a sentence. -/
def closeBeside : CharSet :=
  .ofTable "275b-2760 2e00-2e01 2e06-2e08 2e0b 1f676-1f678"

/-- Brackets and quotes around sentences. -/
def close : CharSet :=
  .diff (.unions [Category.openPunctuation, Category.closePunctuation,
    Category.initialPunctuation, Category.finalPunctuation, Property.quotationMark, closeBeside])
    (.ofTable "ff02 ff07")

/-- The classes for sentences. -/
def sentenceClasses : List Class :=
  [(["cr"], carriageReturn), (["lf"], lineFeed), (["ex", "extend"], sentenceExtend),
    (["se", "sep"], separator), (["fo", "format"], sentenceFormat), (["sp"], space),
    (["lo", "lower"], lower), (["up", "upper"], upper), (["le", "oletter"], otherLetter),
    (["nu", "numeric"], numeric), (["at", "aterm"], ambiguousEnd),
    (["sc", "scontinue"], continues), (["st", "sterm"], sentenceEnd), (["cl", "close"], close)]

end Conform.Segmentation
