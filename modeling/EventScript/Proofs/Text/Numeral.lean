/-
The decimal text of an integer: digits without a leading zero, behind a minus sign when the
integer is negative. Reading it gives the integer back, and there is nothing in it to trim.

The order of such texts is that of their characters, not that of the integers: `9` comes
after `10`. The two orders agree on the sign, as the minus comes before every digit, and
among positive integers of equally many digits, where the first digit to differ decides
either way.
-/
import Mathlib.Algebra.Group.Nat.Defs
import EventScript.Text.Numeral
import EventScript.Text.Split

namespace EventScript.Text

-- ============================================================ reading back

/-- The value of a digit is its distance from zero's. -/
theorem digitValue?_of_isDigit {c : Char} (h : c.isDigit = true) :
    digitValue? 10 c = some (c.toNat - '0'.toNat) := by
  have hrange := Char.isDigit_iff_toNat.mp h
  have hzero : '0'.toNat = 0x30 := rfl
  have hnine : '9'.toNat = 0x39 := rfl
  rw [hzero, hnine] at hrange
  unfold digitValue?
  simp only [hrange.1, hrange.2, decide_true, Bool.and_self, if_true, hzero]
  rw [if_pos (by omega)]

/-- Digits read on from what was read before, as numbers are written. -/
theorem digitsFrom?_of_isDigit {cs : List Char} (h : ∀ c ∈ cs, c.isDigit = true) (acc : Nat) :
    digitsFrom? 10 acc cs = some (Nat.ofDigitChars 10 cs acc) := by
  induction cs generalizing acc with
  | nil => rfl
  | cons c cs ih =>
      have hc := digitValue?_of_isDigit (h c (List.mem_cons_self ..))
      have hcs := ih (fun d hd => h d (List.mem_cons_of_mem _ hd))
      rw [digitsFrom?, hc, Nat.ofDigitChars_cons]
      show digitsFrom? 10 (acc * 10 + _) cs = _
      rw [hcs, Nat.mul_comm]

theorem isDigit_of_mem_digits {n : Nat} {c : Char} (h : c ∈ Nat.toDigits 10 n) :
    c.isDigit = true :=
  Nat.isDigit_of_mem_toDigits (by decide) (by decide) h

/-- Digits are read as the number that they write. -/
theorem natural?_of_isDigit {cs : List Char} (h : ∀ c ∈ cs, c.isDigit = true) (hne : cs ≠ []) :
    natural? 10 cs = some (Nat.ofDigitChars 10 cs 0) := by
  obtain ⟨c, rest, rfl⟩ := List.exists_cons_of_ne_nil hne
  exact digitsFrom?_of_isDigit h 0

/-- The digits of a number are read back. -/
theorem natural?_toDigits (n : Nat) : natural? 10 (Nat.toDigits 10 n) = some n := by
  rw [natural?_of_isDigit (fun _ => isDigit_of_mem_digits) Nat.toDigits_ne_nil,
    Nat.ofDigitChars_toDigits (by decide) (by decide)]

/-- A numeral that is read is below the limit. -/
theorem lt_of_unsignedBelow? {limit n : Nat} {cs : List Char}
    (h : unsignedBelow? limit cs = some n) : n < limit :=
  of_decide_eq_true (Option.filter_eq_some_iff.mp h).2

/-- The characters of an integer's text. -/
theorem toList_toString (i : Int) :
    (toString i).toList
      = if 0 ≤ i then Nat.toDigits 10 i.toNat else '-' :: Nat.toDigits 10 (-i).toNat := by
  rw [Int.toString_eq_repr, Int.repr_eq_if]
  split
  · exact Nat.toList_repr
  · rw [String.toList_append, Nat.toList_repr]
    rfl

/-- An integer is written with digits and a minus. -/
theorem mem_toString {i : Int} {c : Char} (h : c ∈ (toString i).toList) :
    c.isDigit = true ∨ c = '-' := by
  rw [toList_toString] at h
  split at h
  case isTrue => exact Or.inl (isDigit_of_mem_digits h)
  case isFalse =>
    cases h with
    | head => exact Or.inr rfl
    | tail _ h => exact Or.inl (isDigit_of_mem_digits h)

/-- Digits alone are read as a signed numeral without a sign. -/
theorem signed?_of_isDigit {cs : List Char} (h : ∀ c ∈ cs, c.isDigit = true) :
    signed? 10 cs = (natural? 10 cs).map Int.ofNat := by
  unfold signed?
  split
  · exact absurd (h '+' (List.mem_cons_self ..)) (by decide)
  · exact absurd (h '-' (List.mem_cons_self ..)) (by decide)
  · rfl

/-- The text of an integer is read as that integer. -/
theorem signed?_toString (i : Int) : signed? 10 (toString i).toList = some i := by
  rw [toList_toString]
  split
  case isTrue hi =>
    rw [signed?_of_isDigit fun _ => isDigit_of_mem_digits, natural?_toDigits]
    exact congrArg some (Int.toNat_of_nonneg hi)
  case isFalse hi =>
    show (natural? 10 (Nat.toDigits 10 (-i).toNat)).map (fun n => -(n : Int)) = some i
    rw [natural?_toDigits]
    refine congrArg some ?_
    show -((-i).toNat : Int) = i
    omega

/-- Integers are told apart by their decimal texts. -/
theorem toString_inj {a b : Int} : toString a = toString b ↔ a = b := by
  constructor
  · intro h
    have hread := signed?_toString a
    rw [h, signed?_toString b] at hread
    exact (Option.some.inj hread).symm
  · intro h
    rw [h]

-- =============================================================== trimming

/-- A text without blanks has nothing to trim. -/
theorem trimmed_of_not_blank {cs : List Char} (h : ∀ c ∈ cs, isBlank c = false) :
    trimmed cs = cs := by
  have hkeep : ∀ l : List Char, (∀ c ∈ l, isBlank c = false) → l.dropWhile isBlank = l := by
    intro l hl
    cases l with
    | nil => rfl
    | cons c l => exact List.dropWhile_cons_of_neg (by simp [hl c (List.mem_cons_self ..)])
  unfold trimmed
  rw [hkeep cs h, hkeep cs.reverse fun c hc => h c (List.mem_reverse.mp hc), List.reverse_reverse]

theorem not_blank_of_isDigit {c : Char} (h : c.isDigit = true) : isBlank c = false := by
  have hrange := Char.isDigit_iff_toNat.mp h
  have hzero : '0'.toNat = 0x30 := rfl
  have hnine : '9'.toNat = 0x39 := rfl
  rw [hzero, hnine] at hrange
  unfold isBlank
  simp
  omega

theorem trimmed_toString (i : Int) : trimmed (toString i).toList = (toString i).toList := by
  refine trimmed_of_not_blank ?_
  intro c hc
  rcases mem_toString hc with hdigit | rfl
  · exact not_blank_of_isDigit hdigit
  · rfl

-- ============================================================== the order

theorem compare_eq_lt_iff {s t : String} : compare s t = .lt ↔ s.toList < t.toList :=
  compareOfLessAndEq_eq_lt

/-- Where texts ascend with their integers, they compare as these. -/
theorem compare_toString_of_ascending {a b : Int}
    (hab : a < b → (toString a).toList < (toString b).toList)
    (hba : b < a → (toString b).toList < (toString a).toList) :
    compare (toString a) (toString b) = compare a b := by
  rcases Int.lt_trichotomy a b with h | rfl | h
  · rw [compare_eq_lt_iff.mpr (hab h), Int.compare_eq_lt.mpr h]
  · rw [Std.ReflOrd.compare_self, Std.ReflOrd.compare_self]
  · rw [Std.OrientedOrd.eq_swap, compare_eq_lt_iff.mpr (hba h), Int.compare_eq_gt.mpr h]
    rfl

/-- A minus sign comes before every digit. -/
theorem toString_lt_of_neg {a b : Int} (ha : a < 0) (hb : 0 ≤ b) :
    (toString a).toList < (toString b).toList := by
  rw [toList_toString a, toList_toString b, if_neg (by omega), if_pos hb]
  cases hd : Nat.toDigits 10 b.toNat with
  | nil => exact absurd hd Nat.toDigits_ne_nil
  | cons d ds =>
      have hdigit : d.isDigit = true :=
        isDigit_of_mem_digits (hd ▸ List.mem_cons_self .. : d ∈ Nat.toDigits 10 b.toNat)
      have hlow : '0'.toNat ≤ d.toNat := (Char.isDigit_iff_toNat.mp hdigit).1
      refine List.cons_lt_cons_iff.mpr (Or.inl ?_)
      show '-'.toNat < d.toNat
      exact Nat.lt_of_lt_of_le (by decide) hlow

/-- Digits stand for less than the next power of ten. -/
theorem ofDigitChars_lt_pow {cs : List Char} (h : ∀ c ∈ cs, c.isDigit = true) :
    Nat.ofDigitChars 10 cs 0 < 10 ^ cs.length := by
  induction cs with
  | nil => decide
  | cons c cs ih =>
      have hc := (Char.isDigit_iff_toNat.mp (h c (List.mem_cons_self ..))).2
      have hnine : '9'.toNat - '0'.toNat = 9 := rfl
      have hcs := ih fun d hd => h d (List.mem_cons_of_mem _ hd)
      have hhead : 10 ^ cs.length * (c.toNat - '0'.toNat) ≤ 10 ^ cs.length * 9 :=
        Nat.mul_le_mul_left _ (by omega)
      rw [Nat.ofDigitChars_cons, Nat.ofDigitChars_eq_ofDigitChars_zero, Nat.mul_zero,
        Nat.zero_add, List.length_cons, Nat.pow_succ]
      omega

/-- What was read first outweighs all digits to come, when there are equally many. -/
theorem ofDigitChars_lt_of_lt {cs ds : List Char} (hcs : ∀ c ∈ cs, c.isDigit = true)
    (hlen : cs.length = ds.length) {m n : Nat} (h : m < n) :
    Nat.ofDigitChars 10 cs m < Nat.ofDigitChars 10 ds n := by
  have hrest := ofDigitChars_lt_pow hcs
  have hstep : 10 ^ cs.length * (m + 1) ≤ 10 ^ cs.length * n := Nat.mul_le_mul_left _ h
  rw [Nat.mul_succ] at hstep
  rw [Nat.ofDigitChars_eq_ofDigitChars_zero (l := cs),
    Nat.ofDigitChars_eq_ofDigitChars_zero (l := ds), ← hlen]
  omega

/-- Of two rows of equally many digits, the one that stands for less comes first. -/
theorem lt_of_ofDigitChars_lt {cs ds : List Char} (hcs : ∀ c ∈ cs, c.isDigit = true)
    (hds : ∀ d ∈ ds, d.isDigit = true) (hlen : cs.length = ds.length) {n : Nat}
    (h : Nat.ofDigitChars 10 cs n < Nat.ofDigitChars 10 ds n) : cs < ds := by
  induction cs generalizing ds n with
  | nil =>
      cases ds with
      | nil => exact absurd h (Nat.lt_irrefl _)
      | cons d ds => cases hlen
  | cons c cs ih =>
      cases ds with
      | nil => cases hlen
      | cons d ds =>
          have hcs' : ∀ x ∈ cs, x.isDigit = true := fun x hx => hcs x (List.mem_cons_of_mem _ hx)
          have hds' : ∀ x ∈ ds, x.isDigit = true := fun x hx => hds x (List.mem_cons_of_mem _ hx)
          have hlen' : cs.length = ds.length := Nat.succ.inj hlen
          rw [Nat.ofDigitChars_cons, Nat.ofDigitChars_cons] at h
          rw [List.cons_lt_cons_iff]
          rcases Nat.lt_trichotomy c.toNat d.toNat with hlt | heq | hgt
          · exact Or.inl hlt
          · rw [heq] at h
            exact Or.inr ⟨Char.toNat_inj.mp heq, ih hcs' hds' hlen' h⟩
          · -- a greater digit in front would make the whole greater
            have hd := (Char.isDigit_iff_toNat.mp (hds d (List.mem_cons_self ..))).1
            have hgreater := ofDigitChars_lt_of_lt hds' hlen'.symm
              (show 10 * n + (d.toNat - '0'.toNat) < 10 * n + (c.toNat - '0'.toNat) by omega)
            exact absurd h (Nat.lt_asymm hgreater)

/-- Among integers that are not negative, more come later when the texts are equally long. -/
theorem toString_lt_of_length_eq {a b : Int} (ha : 0 ≤ a) (h : a < b)
    (hlen : (toString a).length = (toString b).length) :
    (toString a).toList < (toString b).toList := by
  have hb : 0 ≤ b := by omega
  have hlen' : (toString a).toList.length = (toString b).toList.length := by
    rw [String.length_toList, String.length_toList, hlen]
  rw [toList_toString a, toList_toString b, if_pos ha, if_pos hb] at hlen' ⊢
  refine lt_of_ofDigitChars_lt (fun _ => isDigit_of_mem_digits) (fun _ => isDigit_of_mem_digits)
    hlen' (n := 0) ?_
  rw [Nat.ofDigitChars_toDigits (by decide) (by decide),
    Nat.ofDigitChars_toDigits (by decide) (by decide)]
  omega

end EventScript.Text
