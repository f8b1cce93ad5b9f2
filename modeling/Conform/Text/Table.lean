import Conform.Text.CharSet
import Conform.Text.Hexadecimal

/-!
# Tables of characters

A table is a set of characters written as text: words with blanks or line ends between
them, each a code point, a span or a span with a step, all in hexadecimal. So `41-5a`
are the capital letters of ASCII and `100-104/2` are three characters.
-/

namespace Conform.CharSet

/-- The numbers of a word, which other characters than digits part. -/
def readNumbers (value : Nat) : List Char → List Nat
  | [] => [value]
  | character :: rest =>
    match hexValue? character with
    | some digit => readNumbers (value * 16 + digit) rest
    | none => value :: readNumbers 0 rest

/-- The spans that a word stands for. -/
def spansOfWord (word : String) : List (Nat × Nat) :=
  match readNumbers 0 word.toList with
  | [code] => [(code, code)]
  | [first, last] => [(first, last)]
  | [first, last, step] =>
    (List.range ((last - first) / step + 1)).map (fun count =>
      (first + count * step, first + count * step))
  | _ => []

/-- The words of a table. -/
def wordsOf (text : String) : List String :=
  (text.splitOn "\n").flatMap (fun line => (line.splitOn " ").filter (· ≠ ""))

/-- The set that a table holds. -/
def ofTable (text : String) : CharSet :=
  ofSpans ((wordsOf text).flatMap spansOfWord)

end Conform.CharSet
