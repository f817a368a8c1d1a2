/-
Texts that stay on one line. A line ends at a line feed or a carriage return, and a text is one
line when it holds neither; so a text put together is one line when its parts are. Digits end no
line, and neither does a change of case, since no other character becomes one of the two.

A text of several lines is cut where they end, and what is cut out is one line each time.
-/
import EventScript.Proofs.Text.Basic
import EventScript.Proofs.Text.Case
import EventScript.Proofs.Text.Numeral

namespace EventScript.Text

/-- Whether a line ends at the character. -/
def endsLine (c : Char) : Bool := c == '\n' || c == '\r'

/-- No line ends in the text. -/
def OneLine (s : String) : Prop := ∀ c ∈ s.toList, endsLine c = false

instance (s : String) : Decidable (OneLine s) :=
  decidable_of_iff (s.toList.any endsLine = false) (by simp [OneLine])

variable {s t : String} {c : Char}

@[simp] theorem oneLine_append : OneLine (s ++ t) ↔ OneLine s ∧ OneLine t := by
  unfold OneLine
  rw [String.toList_append]
  exact List.forall_mem_append

/-- What ends a line separates words. -/
theorem isSeparator_of_endsLine (h : endsLine c = true) : isSeparator c = true := by
  simp only [endsLine, Bool.or_eq_true, beq_iff_eq] at h
  rcases h with rfl | rfl
  · rfl
  · rfl

theorem endsLine_of_isDigit (h : c.isDigit = true) : endsLine c = false := by
  have hrange := Char.isDigit_iff_toNat.mp h
  simp only [endsLine, Bool.or_eq_false_iff, beq_eq_false_iff_ne]
  constructor
  · rintro rfl
    exact absurd hrange.1 (by decide)
  · rintro rfl
    exact absurd hrange.1 (by decide)

theorem oneLine_int (i : Int) : OneLine (toString i) := by
  intro c hc
  rcases mem_toString hc with hdigit | rfl
  · exact endsLine_of_isDigit hdigit
  · rfl

theorem oneLine_nat (n : Nat) : OneLine (toString n) := oneLine_int n

/-- Text in upper case has as many lines as before. -/
theorem oneLine_upper : OneLine (upper s) ↔ OneLine s := by
  unfold OneLine upper
  rw [String.toList_ofList]
  constructor
  · intro h c hc
    by_cases hends : endsLine c = true
    · have hkept : c ∈ upperChar c := by
        simp only [endsLine, Bool.or_eq_true, beq_iff_eq] at hends
        rcases hends with rfl | rfl
        · exact List.mem_singleton_self _
        · exact List.mem_singleton_self _
      exact h c (List.mem_flatMap.mpr ⟨c, hc, hkept⟩)
    · exact eq_false_of_ne_true hends
  · intro h d hd
    obtain ⟨c, hc, hmem⟩ := List.mem_flatMap.mp hd
    by_cases hends : endsLine d = true
    · rw [eq_of_mem_upperChar (isSeparator_of_endsLine hends) hmem]
      exact h c hc
    · exact eq_false_of_ne_true hends

-- ============================================================ many lines

/-- The lines that end in the text. -/
def cutLines (s : String) : List String :=
  (piecesAt endsLine s.toList).dropLast.map String.ofList

/-- What a text is cut into are lines. -/
theorem oneLine_of_mem_cutLines (h : t ∈ cutLines s) : OneLine t := by
  obtain ⟨piece, hpiece, rfl⟩ := List.mem_map.mp h
  intro c hc
  rw [String.toList_ofList] at hc
  exact not_of_mem_piecesAt (List.dropLast_subset _ hpiece) hc

/-- A line in front is the first that is cut out. -/
theorem cutLines_append (h : OneLine s) (t : String) :
    cutLines (s ++ "\n" ++ t) = s :: cutLines t := by
  have hends : endsLine '\n' = true := rfl
  have hchars : (s ++ "\n" ++ t).toList = s.toList ++ '\n' :: t.toList := by simp
  unfold cutLines
  rw [hchars, piecesAt_append_cons hends, piecesAt_of_forall_not h, List.singleton_append,
    List.dropLast_cons_of_ne_nil (piecesAt_ne_nil _ _), List.map_cons, String.ofList_toList]

end EventScript.Text
