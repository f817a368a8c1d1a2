/-
A value without indentation is one line. The only characters of a value that could end a line
are those of its strings, and between quotes these are escaped; everything else is marks, digits
and fixed words.
-/
import EventScript.Json.Printer
import EventScript.Proofs.Decimal.Writing
import EventScript.Proofs.Text.Lines

namespace EventScript.Json

open Text (OneLine endsLine oneLine_append)

-- =============================================================== strings

/-- Every character is escaped into characters that end no line. -/
theorem endsLine_of_mem_escapeChar {c d : Char} (h : d ∈ escapeChar c) : endsLine d = false := by
  unfold escapeChar at h
  -- the seven characters with an escape of their own
  iterate 7
    split at h
    · simp only [List.mem_cons, List.not_mem_nil, or_false] at h
      rcases h with rfl | rfl
      · rfl
      · rfl
  split at h
  · have hdigit : ∀ n < 16, endsLine (Nat.digitChar n) = false := by decide
    simp only [List.mem_cons, List.not_mem_nil, or_false] at h
    rcases h with rfl | rfl | rfl | rfl | rfl | rfl
    · rfl
    · rfl
    · rfl
    · rfl
    · exact hdigit _ (by omega)
    · exact hdigit _ (by omega)
  · rw [List.mem_singleton] at h
    subst h
    simp_all [endsLine]

/-- A text in quotes is one line, since ends of lines are escaped. -/
theorem oneLine_quoted (s : String) : OneLine (quoted s) := by
  intro c hc
  unfold quoted at hc
  rw [String.toList_ofList] at hc
  rcases List.mem_append.mp hc with hc | hc
  · rcases List.mem_cons.mp hc with rfl | hc
    · rfl
    · obtain ⟨d, -, hmem⟩ := List.mem_flatMap.mp hc
      exact endsLine_of_mem_escapeChar hmem
  · rw [List.mem_singleton.mp hc]
    rfl

-- =============================================================== numbers

theorem oneLine_write (n : Number) : OneLine n.write := by
  cases n with
  | int i fits => exact Text.oneLine_int i
  | float x finite =>
      obtain ⟨text, htext, hwrites⟩ := Decimal.exists_writes_document finite
      intro c hc
      unfold Number.write at hc
      rw [htext] at hc
      rcases List.mem_append.mp hc with hsign | hc
      · split at hsign
        case isTrue =>
          rw [List.mem_singleton.mp hsign]
          rfl
        case isFalse => cases hsign
      · rcases hwrites.mem hc with hdigit | rfl | rfl | rfl | rfl
        · exact Text.endsLine_of_isDigit hdigit
        · rfl
        · rfl
        · rfl
        · rfl

-- ================================================================ values

mutual

/-- A value is printed on one line, by one case for each constructor. -/
theorem oneLine_compact : ∀ v : Json, OneLine v.compact
  | null => by decide
  | bool true => by decide
  | bool false => by decide
  | number n => oneLine_write n
  | string s => oneLine_quoted s
  | array items => by
      have hitems := oneLine_compactItems items
      show OneLine ("[" ++ compactItems items ++ "]")
      simp only [oneLine_append, hitems, and_true]
      decide
  | object members => by
      have hmembers := oneLine_compactMembers members
      show OneLine ("\x7b" ++ compactMembers members ++ "\x7d")
      simp only [oneLine_append, hmembers, and_true]
      decide

theorem oneLine_compactItems : ∀ items : List Json, OneLine (compactItems items)
  | [] => by decide
  | [v] => oneLine_compact v
  | v :: w :: rest => by
      have hv := oneLine_compact v
      have hrest := oneLine_compactItems (w :: rest)
      show OneLine (compact v ++ "," ++ compactItems (w :: rest))
      simp only [oneLine_append, hv, hrest, and_true, true_and]
      decide

theorem oneLine_compactMembers : ∀ members : List (String × Json), OneLine (compactMembers members)
  | [] => by decide
  | [(k, v)] => by
      have hv := oneLine_compact v
      show OneLine (quoted k ++ ":" ++ compact v)
      simp only [oneLine_append, oneLine_quoted, hv, and_true, true_and]
      decide
  | (k, v) :: m :: rest => by
      have hv := oneLine_compact v
      have hrest := oneLine_compactMembers (m :: rest)
      show OneLine (quoted k ++ ":" ++ compact v ++ "," ++ compactMembers (m :: rest))
      simp only [oneLine_append, oneLine_quoted, hv, hrest, and_true, true_and]
      decide

end

end EventScript.Json
