/-
The character classes of YAML, and why a text can fail to be a YAML document. A program
only learns that its text is no YAML; the problem and its line are for the author.
-/
namespace EventScript.Yaml

/-- A line break; besides the usual three, the separators of Unicode count. -/
def isBreak (c : Char) : Bool :=
  c == '\n' || c == '\r' || c == '\u0085' || c == '\u2028' || c == '\u2029'

/-- A blank within a line. -/
def isBlank (c : Char) : Bool := c == ' ' || c == '\t'

/-- Neither blank nor break. -/
def isInk (c : Char) : Bool := !isBlank c && !isBreak c

/-- A character of an anchor, a directive name or a tag handle. -/
def isWord (c : Char) : Bool := c.isAlphanum || c == '_' || c == '-'

/-- A character of a tag besides word characters. -/
def isTagMark (c : Char) : Bool := ";/?:@&=+$.%!~*'()".toList.contains c

/-- An indicator of a flow collection, which ends a plain scalar inside one. -/
def isFlowMark (c : Char) : Bool := [',', '[', ']', '{', '}'].contains c

/-- A character a document may contain. -/
def isPermitted (c : Char) : Bool :=
  let n := c.toNat
  n == 0x09 || n == 0x0A || n == 0x0D || (0x20 ≤ n && n ≤ 0x7E) || n == 0x85
    || (0xA0 ≤ n && n ≤ 0xD7FF) || (0xE000 ≤ n && n ≤ 0xFFFD) || 0x10000 ≤ n

/-- What is wrong with a text. -/
inductive Problem where
  | controlCharacter
  | tabInIndentation
  | documentMarkerInQuotes
  | unclosedQuote
  | unknownEscape
  | escapeDigits
  | escapeCode
  | colonInFlow
  | anchorName
  | tagForm
  | blockHeader
  | directive
  | keyWithoutColon
  | entryNotAllowed
  | keyNotAllowed
  | valueNotAllowed
  | strayCharacter
  | undefinedTagHandle
  | expectedNode
  | expectedEntry
  | expectedKey
  | expectedSequenceEnd
  | expectedMappingEnd
  | expectedDocumentStart
  | unknownAnchor
  | localTag
  | tagMismatch
  | keyNotScalar
  | integerRange
  | tooDeep
  | tooManyAliases
  | severalDocuments
  | endless
deriving DecidableEq, Repr

/-- The problem in words. -/
def Problem.message : Problem → String
  | controlCharacter => "control characters are not allowed"
  | tabInIndentation => "found a tab where indentation is expected"
  | documentMarkerInQuotes => "found a document marker inside a quoted scalar"
  | unclosedQuote => "found the end of the text inside a quoted scalar"
  | unknownEscape => "found an unknown escape character"
  | escapeDigits => "did not find the hexadecimal digits of an escape"
  | escapeCode => "found an escape that denotes no character"
  | colonInFlow => "found an unexpected ':'"
  | anchorName => "did not find the name of an anchor or alias"
  | tagForm => "did not find the expected form of a tag"
  | blockHeader => "found an unexpected block scalar header"
  | directive => "found an unknown or malformed directive"
  | keyWithoutColon => "could not find expected ':'"
  | entryNotAllowed => "block sequence entries are not allowed in this context"
  | keyNotAllowed => "mapping keys are not allowed in this context"
  | valueNotAllowed => "mapping values are not allowed in this context"
  | strayCharacter => "found a character that cannot start any token"
  | undefinedTagHandle => "found an undefined tag handle"
  | expectedNode => "did not find expected node content"
  | expectedEntry => "did not find expected '-' indicator"
  | expectedKey => "did not find expected key"
  | expectedSequenceEnd => "did not find expected ',' or ']'"
  | expectedMappingEnd => "did not find expected ',' or closing brace"
  | expectedDocumentStart => "did not find expected document start"
  | unknownAnchor => "unknown anchor"
  | localTag => "a value with a local tag is not supported"
  | tagMismatch => "the scalar does not fit its tag"
  | keyNotScalar => "a mapping key must be a scalar"
  | integerRange => "integer out of range"
  | tooDeep => "recursion limit exceeded"
  | tooManyAliases => "repetition limit exceeded"
  | severalDocuments => "a text with more than one document is not supported"
  | endless => "the text does not end"

/-- A problem and, where it was met among the characters, its line counted from zero. -/
structure Fault where
  problem : Problem
  line : Option Nat := none
deriving DecidableEq, Repr

/-- The fault in words, with its line counted from one where it has a line. -/
def Fault.message (f : Fault) : String :=
  match f.line with
  | some n => f.problem.message ++ " at line " ++ toString (n + 1)
  | none => f.problem.message

end EventScript.Yaml
