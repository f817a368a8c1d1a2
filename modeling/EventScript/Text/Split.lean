/-
Blank characters and trimming, and cutting text at separators and joining it again. Every
place that ignores surrounding white space (numbers in text, settings, an empty version, the
words of an identifier) means the same set, Unicode's `White_Space`, so it is written down
once. Both cuts keep empty pieces: the number of pieces is one more than the number of
separators met.
-/
namespace EventScript.Text

-- ================================================================= blanks

/-- Whether `c` has the property `White_Space`. -/
def isBlank (c : Char) : Bool :=
  let n := c.toNat
  (0x09 ≤ n && n ≤ 0x0D) || n == 0x20 || n == 0x85 || n == 0xA0 || n == 0x1680
    || (0x2000 ≤ n && n ≤ 0x200A) || n == 0x2028 || n == 0x2029 || n == 0x202F
    || n == 0x205F || n == 0x3000

/-- The characters without the blanks at either end. -/
def trimmed (cs : List Char) : List Char :=
  ((cs.dropWhile isBlank).reverse.dropWhile isBlank).reverse

/-- The text without the blanks at either end. -/
def trim (s : String) : String := String.ofList (trimmed s.toList)

/-- Whether the text holds nothing but blanks. -/
def isAllBlank (s : String) : Bool := s.toList.all isBlank

-- ============================================================= separators

/-- The stretches of `cs` between the characters that satisfy `p`. -/
def piecesAt (p : Char → Bool) : List Char → List (List Char)
  | [] => [[]]
  | c :: rest =>
    if p c then [] :: piecesAt p rest
    else match piecesAt p rest with
      | [] => [[c]]
      | piece :: pieces => (c :: piece) :: pieces

/-- The stretches between the leftmost disjoint occurrences of `mark :: marks`; the first
argument counts the characters of a separator still to be passed over. -/
def piecesBy (mark : Char) (marks : List Char) : Nat → List Char → List (List Char)
  | _, [] => [[]]
  | n + 1, _ :: rest => piecesBy mark marks n rest
  | 0, c :: rest =>
    if (mark :: marks).isPrefixOf (c :: rest) then
      [] :: piecesBy mark marks marks.length rest
    else match piecesBy mark marks 0 rest with
      | [] => [[c]]
      | piece :: pieces => (c :: piece) :: pieces

/-- The text cut at `separator`. The empty separator occurs before every character and at
the end, so it yields an empty piece on either side of the single characters. -/
def split (separator s : String) : List String :=
  match separator.toList with
  | [] => "" :: (s.toList.map fun c => String.ofList [c]) ++ [""]
  | mark :: marks => (piecesBy mark marks 0 s.toList).map String.ofList

/-- The texts with `separator` between neighbours. -/
def join (separator : String) : List String → String
  | [] => ""
  | [s] => s
  | s :: rest => s ++ separator ++ join separator rest

end EventScript.Text
