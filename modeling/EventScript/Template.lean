/-
Text with places to fill. A placeholder is a name between double braces, with blanks
allowed around the name; everything else stands for itself. Filling goes through the text
once, so a value put in is not looked at again.
-/
import EventScript.Json.Printer
import EventScript.Text.Split

namespace EventScript.Template

/-- A character of a placeholder's name. -/
def isNameChar (c : Char) : Bool :=
  c.isAlphanum || c == '_' || c == '$' || c == '.' || c == '-'

/-- The name of the placeholder that `cs` starts with, and what follows it. -/
def placeholder? : List Char → Option (List Char × List Char)
  | '{' :: '{' :: inside =>
    let inside := inside.dropWhile Text.isBlank
    match inside.takeWhile isNameChar,
        (inside.dropWhile isNameChar).dropWhile Text.isBlank with
    | c :: name, '}' :: '}' :: rest => some (c :: name, rest)
    | _, _ => none
  | _ => none

private theorem length_dropWhile_le (p : Char → Bool) (l : List Char) :
    (l.dropWhile p).length ≤ l.length :=
  (List.dropWhile_sublist p).length_le

/-- What follows a placeholder is shorter than the text. -/
theorem length_lt_of_placeholder? {cs name rest : List Char}
    (h : placeholder? cs = some (name, rest)) : rest.length < cs.length := by
  unfold placeholder? at h
  split at h
  next inside =>
    dsimp only at h
    split at h
    next c name' rest' _ hr =>
      cases h
      have h1 := length_dropWhile_le Text.isBlank
        ((inside.dropWhile Text.isBlank).dropWhile isNameChar)
      have h2 := length_dropWhile_le isNameChar (inside.dropWhile Text.isBlank)
      have h3 := length_dropWhile_le Text.isBlank inside
      rw [hr] at h1
      simp only [List.length_cons] at h1 ⊢
      omega
    next => cases h
  next => cases h

/-- The characters of a text with every placeholder filled, leftmost first. -/
def fillFrom (value : String → String) (cs : List Char) : List Char :=
  match _h : placeholder? cs with
  | some (name, rest) => (value (String.ofList name)).toList ++ fillFrom value rest
  | none => match cs with
    | [] => []
    | c :: rest => c :: fillFrom value rest
termination_by cs.length
decreasing_by
  · exact length_lt_of_placeholder? (by assumption)
  · simp

/-- The text with every placeholder replaced by the display of what `lookup` finds under
its name, and by nothing when it finds nothing. -/
def render (lookup : String → Option Json) (template : String) : String :=
  let value (name : String) : String := match lookup name with
    | some v => v.display
    | none => ""
  String.ofList (fillFrom value template.toList)

end EventScript.Template
