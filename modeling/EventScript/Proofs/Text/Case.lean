/-
What case maps lead to. Nothing but itself becomes a character that stands between words, and
line breaks are among those; so a text in another case has its separators and its line breaks
where it had them before. The maps are tables of shifts, and no shift has one of the few
separators for its end.
-/
import EventScript.Proofs.Text.Basic
import EventScript.Text.Words

namespace EventScript.Text

-- ================================================================= tables

namespace Case

/-- Whether some shift moves a code point to `m`. -/
def leadsTo (table : List Shift) (m : Nat) : Bool :=
  table.any fun s => 0 ≤ (m : Int) - s.distance && s.members.has ((m : Int) - s.distance).toNat

/-- Where a table moves a code point is one of the places it leads to. -/
theorem leadsTo_of_shifted? {table : List Shift} {n m : Nat} (h : shifted? table n = some m)
    (hm : 0 < m) : leadsTo table m = true := by
  obtain ⟨s, hs, hmove⟩ := Option.map_eq_some_iff.mp h
  have hback : (m : Int) - s.distance = n := by omega
  have hhas := List.find?_some hs
  refine List.any_eq_true.mpr ⟨s, List.mem_of_find?_eq_some hs, ?_⟩
  simp [hback, hhas]

end Case

/-- The code points of the characters that stand between words. -/
def separators : List Nat :=
  [0x2D, 0x5F, 0x20, 0x85, 0xA0, 0x1680, 0x2028, 0x2029, 0x202F, 0x205F, 0x3000]
    ++ List.range' 0x09 5 ++ List.range' 0x2000 11

variable {c d : Char}

/-- What separates words is one of the listed code points. -/
theorem mem_separators (h : isSeparator c = true) : c.toNat ∈ separators := by
  simp only [isSeparator, isBlank, Bool.or_eq_true, Bool.and_eq_true, beq_iff_eq,
    decide_eq_true_eq] at h
  simp only [separators, List.mem_append, List.mem_range'_1, List.mem_cons, List.not_mem_nil,
    or_false]
  rcases h with (rfl | rfl) | h
  · decide
  · decide
  · omega

/-- No entry of the tables has a separator for its end. -/
theorem not_leadsTo_separators : ∀ m ∈ separators,
    Case.leadsTo Case.lowerShifts m = false ∧ Case.leadsTo Case.upperShifts m = false
      ∧ ∀ entry ∈ Case.upperExpansions, m ∉ entry.2 := by
  decide +kernel

-- ================================================================== ASCII

/-- Small letters of ASCII are made capital, and nothing else is changed. -/
theorem toNat_toUpper (c : Char) :
    c.toUpper.toNat = if 0x61 ≤ c.toNat ∧ c.toNat ≤ 0x7A then c.toNat - 0x20 else c.toNat := by
  have hlower : ('a'.val ≤ c.val ∧ c.val ≤ 'z'.val) ↔ 0x61 ≤ c.toNat ∧ c.toNat ≤ 0x7A := Iff.rfl
  unfold Char.toUpper
  split
  case isTrue h =>
    have hrange := hlower.mp h
    rw [if_pos hrange]
    show (c.val + ('A'.val - 'a'.val)).toNat = c.val.toNat - 0x20
    have hshift : ('A'.val - 'a'.val).toNat = 2 ^ 32 - 0x20 := rfl
    rw [UInt32.toNat_add, hshift]
    have : 0x61 ≤ c.val.toNat ∧ c.val.toNat ≤ 0x7A := hrange
    omega
  case isFalse h => rw [if_neg (mt hlower.mpr h)]

theorem not_mem_separators_of_letter {n : Nat}
    (h : 0x41 ≤ n ∧ n ≤ 0x5A ∨ 0x61 ≤ n ∧ n ≤ 0x7A) : n ∉ separators := by
  simp only [separators, List.mem_append, List.mem_range'_1, List.mem_cons, List.not_mem_nil,
    or_false]
  omega

-- ============================================================== characters

/-- A separator is in the lower case of nothing but itself. -/
theorem eq_of_mem_lowerChar (hd : isSeparator d = true) (h : d ∈ lowerChar c) : d = c := by
  have hmem := mem_separators hd
  rcases mem_lowerChar h with rfl | ⟨-, rfl⟩ | hfew | hshift
  · rfl
  · have hmove := toNat_toLower c
    by_cases hcapital : 0x41 ≤ c.toNat ∧ c.toNat ≤ 0x5A
    · rw [if_pos hcapital] at hmove
      exact absurd hmem (not_mem_separators_of_letter (by omega))
    · rw [if_neg hcapital] at hmove
      exact Char.toNat_inj.mp hmove
  · have hnone : ['i', '\u0307', '\uFFFD'].any isSeparator = false := rfl
    have hsome := List.any_eq_true.mpr ⟨d, hfew, hd⟩
    rw [hnone] at hsome
    cases hsome
  · have hpos : ∀ m ∈ separators, 0 < m := by decide
    have hlead := Case.leadsTo_of_shifted? hshift (hpos _ hmem)
    rw [(not_leadsTo_separators _ hmem).1] at hlead
    cases hlead

/-- Lower-casing does not make a separator. -/
theorem not_isSeparator_of_mem_lowerChar (hc : isSeparator c = false) (h : d ∈ lowerChar c) :
    isSeparator d = false := by
  cases hd : isSeparator d with
  | false => rfl
  | true =>
      rw [← eq_of_mem_lowerChar hd h, hd] at hc
      cases hc

/-- A separator is in the upper case of nothing but itself. -/
theorem eq_of_mem_upperChar (hd : isSeparator d = true) (h : d ∈ upperChar c) : d = c := by
  have hmem := mem_separators hd
  rcases mem_upperChar h with rfl | ⟨-, rfl⟩ | rfl | ⟨entry, hentry, hin⟩ | hshift
  · rfl
  · have hmove := toNat_toUpper c
    by_cases hsmall : 0x61 ≤ c.toNat ∧ c.toNat ≤ 0x7A
    · rw [if_pos hsmall] at hmove
      exact absurd hmem (not_mem_separators_of_letter (by omega))
    · rw [if_neg hsmall] at hmove
      exact Char.toNat_inj.mp hmove
  · exact absurd hd (by decide)
  · exact absurd hin ((not_leadsTo_separators _ hmem).2.2 entry hentry)
  · have hpos : ∀ m ∈ separators, 0 < m := by decide
    have hlead := Case.leadsTo_of_shifted? hshift (hpos _ hmem)
    rw [(not_leadsTo_separators _ hmem).2.1] at hlead
    cases hlead

end EventScript.Text
