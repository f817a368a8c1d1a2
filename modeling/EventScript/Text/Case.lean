/-
Upper and lower case of any text. A capital may take several characters, and a capital
sigma at the end of a word becomes the final small sigma, so lower-casing a whole text
looks at a character's surroundings while lower-casing one character does not.
-/
import EventScript.Text.Case.Tables

namespace EventScript.Text

/-- The character with code point `n` when `n` is a code point, else the replacement
character; the case tables lead to code points only. -/
private def charAt (n : Nat) : Char :=
  if n.isValidChar then Char.ofNat n else '\uFFFD'

/-- A small letter, or another character with the property `Lowercase`. -/
def isLower (c : Char) : Bool :=
  if c.toNat < 0x80 then c.isLower else Case.anyHas Case.lowercase c.toNat

/-- A capital, or another character with the property `Uppercase`. -/
def isUpper (c : Char) : Bool :=
  if c.toNat < 0x80 then c.isUpper else Case.anyHas Case.uppercase c.toNat

/-- A character that case maps distinguish at all. -/
def isCased (c : Char) : Bool :=
  isLower c || isUpper c || Case.anyHas Case.titlecase c.toNat

/-- The lower case of one character taken by itself. -/
def lowerChar (c : Char) : List Char :=
  if c.toNat < 0x80 then [c.toLower]
  else if c.toNat == 0x130 then ['i', '\u0307']
  else match Case.shifted? Case.lowerShifts c.toNat with
    | some n => [charAt n]
    | none => [c]

/-- The upper case of one character. -/
def upperChar (c : Char) : List Char :=
  if c.toNat < 0x80 then [c.toUpper]
  else match Case.upperExpansions.find? fun entry => entry.1 == c.toNat with
    | some (_, ns) => ns.map charAt
    | none => match Case.shifted? Case.upperShifts c.toNat with
      | some n => [charAt n]
      | none => [c]

private theorem charAt_cases (n : Nat) : charAt n = '\uFFFD' ∨ (charAt n).toNat = n := by
  unfold charAt
  split
  · next h =>
    refine Or.inr ?_
    rw [Char.ofNat, dif_pos h]
    rfl
  · exact Or.inl rfl

/-- What a character's lower case can be made of. -/
theorem mem_lowerChar {c d : Char} (h : d ∈ lowerChar c) :
    d = c ∨ c.toNat < 0x80 ∧ d = c.toLower ∨ d ∈ ['i', '\u0307', '\uFFFD']
      ∨ Case.shifted? Case.lowerShifts c.toNat = some d.toNat := by
  unfold lowerChar at h
  split at h
  · next hascii => exact Or.inr (Or.inl ⟨hascii, List.mem_singleton.mp h⟩)
  · split at h
    · exact Or.inr (Or.inr (Or.inl (List.mem_append_left ['\uFFFD'] h)))
    · split at h
      · next n hn =>
        rw [List.mem_singleton] at h
        rcases charAt_cases n with hchar | hchar
        · exact Or.inr (Or.inr (Or.inl (by simp [h, hchar])))
        · exact Or.inr (Or.inr (Or.inr (by rw [hn, h, hchar])))
      · exact Or.inl (List.mem_singleton.mp h)

/-- What a character's upper case can be made of. -/
theorem mem_upperChar {c d : Char} (h : d ∈ upperChar c) :
    d = c ∨ c.toNat < 0x80 ∧ d = c.toUpper ∨ d = '\uFFFD'
      ∨ (∃ entry ∈ Case.upperExpansions, d.toNat ∈ entry.2)
      ∨ Case.shifted? Case.upperShifts c.toNat = some d.toNat := by
  unfold upperChar at h
  split at h
  · next hascii => exact Or.inr (Or.inl ⟨hascii, List.mem_singleton.mp h⟩)
  · split at h
    · next m ns hentry =>
      obtain ⟨n, hn, rfl⟩ := List.mem_map.mp h
      rcases charAt_cases n with hchar | hchar
      · exact Or.inr (Or.inr (Or.inl hchar))
      · refine Or.inr (Or.inr (Or.inr (Or.inl ⟨(m, ns), List.mem_of_find?_eq_some hentry, ?_⟩)))
        rw [hchar]
        exact hn
    · split at h
      · next n hn =>
        rw [List.mem_singleton] at h
        rcases charAt_cases n with hchar | hchar
        · exact Or.inr (Or.inr (Or.inl (h.trans hchar)))
        · exact Or.inr (Or.inr (Or.inr (Or.inr (by rw [hn, h, hchar]))))
      · exact Or.inl (List.mem_singleton.mp h)

/-- Whether the nearest character that is not case-ignorable is cased. -/
private def meetsCased (cs : List Char) : Bool :=
  match cs.dropWhile fun c => Case.anyHas Case.caseIgnorable c.toNat with
  | [] => false
  | c :: _ => isCased c

/-- Lower case of a text whose part already passed, last character first, is `before`. -/
private def lowerFrom (before : List Char) : List Char → List Char
  | [] => []
  | c :: rest =>
    let small :=
      if c == 'Σ' then
        if meetsCased before && !meetsCased rest then ['ς'] else ['σ']
      else lowerChar c
    small ++ lowerFrom (c :: before) rest

/-- The text in lower case. -/
def lower (s : String) : String := String.ofList (lowerFrom [] s.toList)

/-- The text in upper case. -/
def upper (s : String) : String := String.ofList (s.toList.flatMap upperChar)

/-- Equality up to the case of the letters `A` to `Z`. -/
def equalIgnoringAsciiCase (s t : String) : Bool :=
  s.toList.map Char.toLower == t.toList.map Char.toLower

end EventScript.Text
