/-
The words of an identifier and the ways to write them together. Words break at `_`, `-`
and blanks, and where a capital follows a small letter or a digit; they come out in lower
case.
-/
import EventScript.Text.Case
import EventScript.Text.Split

namespace EventScript.Text

/-- A character that stands between words. -/
def isSeparator (c : Char) : Bool := c == '_' || c == '-' || isBlank c

/-- A character after which a capital starts a new word. -/
def endsSmall (c : Char) : Bool := isLower c || c.isDigit

/-- The words of the rest of a text in the middle of the word `word`; `small` tells whether
the character before was small. -/
def wordsFrom (word : List Char) (small : Bool) : List Char → List (List Char)
  | [] => if word.isEmpty then [] else [word]
  | c :: rest =>
    if isSeparator c then
      if word.isEmpty then wordsFrom [] false rest else word :: wordsFrom [] false rest
    else if isUpper c && small && !word.isEmpty then
      word :: wordsFrom (lowerChar c) (endsSmall c) rest
    else wordsFrom (word ++ lowerChar c) (endsSmall c) rest

/-- The words of a text. -/
def words (s : String) : List String := (wordsFrom [] false s.toList).map String.ofList

/-- The text with its first character in upper case and the others in lower case, each
taken by itself. -/
def capitalize (s : String) : String :=
  match s.toList with
  | [] => ""
  | c :: rest => String.ofList (upperChar c ++ rest.flatMap lowerChar)

/-- The words with every one but the first capitalized. -/
def camelize (s : String) : String :=
  match words s with
  | [] => ""
  | w :: rest => w ++ join "" (rest.map capitalize)

/-- The words between underscores. -/
def underscore (s : String) : String := join "_" (words s)

/-- The words between dashes. -/
def dasherize (s : String) : String := join "-" (words s)

end EventScript.Text
