/-
Text as its characters. Cut at a mark, it falls into pieces that hold no mark; joining them with
the mark gives the text back. Blanks in front are dropped up to the first character that is none.
-/
import EventScript.Text.Split

namespace EventScript.Text

variable {p : Char → Bool} {cs : List Char}

-- ================================================================= pieces

theorem piecesAt_ne_nil (p : Char → Bool) (cs : List Char) : piecesAt p cs ≠ [] := by
  cases cs with
  | nil => exact List.cons_ne_nil _ _
  | cons c rest =>
      unfold piecesAt
      split
      · exact List.cons_ne_nil _ _
      · split <;> exact List.cons_ne_nil _ _

/-- A separator cuts the text in two, whose pieces are the pieces of the whole. -/
theorem piecesAt_append_cons {mark : Char} (hmark : p mark = true)
    (cs ds : List Char) : piecesAt p (cs ++ mark :: ds) = piecesAt p cs ++ piecesAt p ds := by
  induction cs with
  | nil => simp [piecesAt, hmark]
  | cons c rest ih =>
      simp only [List.cons_append, piecesAt, ih]
      split
      case isTrue => rfl
      case isFalse =>
        cases hrest : piecesAt p rest with
        | nil => exact absurd hrest (piecesAt_ne_nil p rest)
        | cons piece pieces => rfl

/-- Without a separator there is one piece, the whole. -/
theorem piecesAt_of_forall_not (h : ∀ c ∈ cs, p c = false) : piecesAt p cs = [cs] := by
  induction cs with
  | nil => rfl
  | cons c rest ih =>
      rw [List.forall_mem_cons] at h
      simp [piecesAt, h.1, ih h.2]

/-- No separator is left in a piece. -/
theorem not_of_mem_piecesAt {piece : List Char} {c : Char} (hpiece : piece ∈ piecesAt p cs)
    (hc : c ∈ piece) : p c = false := by
  induction cs generalizing piece with
  | nil =>
      rw [piecesAt, List.mem_singleton] at hpiece
      rw [hpiece] at hc
      cases hc
  | cons d rest ih =>
      unfold piecesAt at hpiece
      split at hpiece
      case isTrue =>
        rcases List.mem_cons.mp hpiece with rfl | hrest
        · cases hc
        · exact ih hrest hc
      case isFalse hd =>
        cases hrest : piecesAt p rest with
        | nil => exact absurd hrest (piecesAt_ne_nil p rest)
        | cons first pieces =>
            rw [hrest] at hpiece
            rcases List.mem_cons.mp hpiece with rfl | hmem
            · rcases List.mem_cons.mp hc with rfl | hc
              · simpa using hd
              · exact ih (by rw [hrest]; exact List.mem_cons_self ..) hc
            · exact ih (by rw [hrest]; exact List.mem_cons_of_mem _ hmem) hc

/-- Joining what was cut out between the marks gives the text back. -/
theorem join_piecesAt (mark : Char) (cs : List Char) :
    (join (String.ofList [mark]) ((piecesAt (· == mark) cs).map String.ofList)).toList = cs := by
  induction cs with
  | nil => rfl
  | cons c rest ih =>
      unfold piecesAt
      cases hrest : piecesAt (· == mark) rest with
      | nil => exact absurd hrest (piecesAt_ne_nil _ rest)
      | cons first pieces =>
          rw [hrest] at ih
          by_cases hc : c = mark
          · simp only [hc, beq_self_eq_true, if_true, List.map_cons, join, String.toList_append,
              String.toList_ofList, List.nil_append, List.cons_append] at ih ⊢
            rw [ih]
          · have hne : (c == mark) = false := beq_false_of_ne hc
            simp only [hne, Bool.false_eq_true, if_false, List.map_cons] at ih ⊢
            cases pieces with
            | nil =>
                simp only [List.map_nil, join, String.toList_ofList] at ih ⊢
                rw [ih]
            | cons second pieces =>
                simp only [List.map_cons, join, String.toList_append, String.toList_ofList,
                  List.cons_append] at ih ⊢
                rw [ih]

/-- Nothing stands between the marks exactly when there are only marks. -/
theorem forall_piecesAt_nil_iff {mark : Char} :
    (∀ piece ∈ piecesAt (· == mark) cs, piece = []) ↔ ∀ c ∈ cs, c = mark := by
  induction cs with
  | nil => simp [piecesAt]
  | cons c rest ih =>
      unfold piecesAt
      by_cases hc : c = mark
      · simp only [hc, beq_self_eq_true, if_true, List.forall_mem_cons, true_and, ih]
      · cases hrest : piecesAt (· == mark) rest with
        | nil => exact absurd hrest (piecesAt_ne_nil _ rest)
        | cons first pieces => simp [hc]

-- ======================================================== blanks, case

/-- Blanks are dropped up to what begins with none. -/
theorem dropWhile_blank_append {before body rest : List Char}
    (hbefore : ∀ c ∈ before, isBlank c = true)
    (hbody : ∀ c ∈ body, isBlank c = false) (hne : body ≠ []) :
    (before ++ (body ++ rest)).dropWhile isBlank = body ++ rest := by
  rw [List.dropWhile_append_of_pos hbefore]
  cases body with
  | nil => exact absurd rfl hne
  | cons c body => exact List.dropWhile_cons_of_neg (by simp [hbody c (List.mem_cons_self ..)])

/-- Capital letters of ASCII are made small, and nothing else is changed. -/
theorem toNat_toLower (c : Char) :
    c.toLower.toNat = if 0x41 ≤ c.toNat ∧ c.toNat ≤ 0x5A then c.toNat + 0x20 else c.toNat := by
  have hupper : (c.val ≥ 'A'.val ∧ c.val ≤ 'Z'.val) ↔ 0x41 ≤ c.toNat ∧ c.toNat ≤ 0x5A := Iff.rfl
  unfold Char.toLower
  split
  case isTrue h =>
    have hrange := hupper.mp h
    rw [if_pos hrange]
    show (c.val + ('a'.val - 'A'.val)).toNat = c.val.toNat + 0x20
    have hshift : ('a'.val - 'A'.val).toNat = 0x20 := rfl
    rw [UInt32.toNat_add, hshift]
    have : c.val.toNat ≤ 0x5A := hrange.2
    omega
  case isFalse h => rw [if_neg (mt hupper.mpr h)]

end EventScript.Text
