/-
One number in two notations. An amount that an event gives in hexadecimal behind `0x` and one
that it gives in decimal are read by different rules: either is exact within 128 bits, but
beyond them only the decimal one goes on as a double. So the two notations agree up to the
greatest exact integer, and again from where the nearest double is infinite and neither is an
amount; in between the hexadecimal is no amount and the decimal is.
-/
import EventScript.Proofs.Decimal.Rounding
import EventScript.Proofs.Numeric.Spelling
import Mathlib.Data.List.Forall2

namespace EventScript

namespace Text

variable {radix n : Nat} {cs : List Char}

-- ============================================================= the digits

/-- A digit is an Arabic one or a letter from `A` to `Z` of either case. -/
theorem range_of_digitValue? {c : Char} {d : Nat} (h : digitValue? radix c = some d) :
    d < radix ∧ ((0x30 ≤ c.toNat ∧ c.toNat ≤ 0x39 ∧ d = c.toNat - 0x30)
      ∨ (0x61 ≤ c.toNat ∧ c.toNat ≤ 0x7A ∧ d = c.toNat - 0x61 + 10)
      ∨ (0x41 ≤ c.toNat ∧ c.toNat ≤ 0x5A ∧ d = c.toNat - 0x41 + 10)) := by
  unfold digitValue? at h
  simp only [Option.ite_none_right_eq_some, Option.some.injEq, Bool.and_eq_true,
    decide_eq_true_eq] at h
  obtain ⟨hlt, hvalue⟩ := h
  refine ⟨hvalue ▸ hlt, ?_⟩
  split at hvalue
  · omega
  · split at hvalue
    · omega
    · split at hvalue
      · omega
      · -- a character that is no digit counts as the radix itself
        next h1 h2 h3 =>
        rw [if_neg h1, if_neg h2, if_neg h3] at hlt
        exact absurd hlt (Nat.lt_irrefl radix)

/-- No digit of any radix is a blank. -/
theorem not_blank_of_digitValue? {c : Char} {d : Nat} (h : digitValue? radix c = some d) :
    isBlank c = false := by
  have hrange := (range_of_digitValue? h).2
  unfold isBlank
  simp
  omega

theorem isDigit_of_digitValue? {c : Char} {d : Nat} (h : digitValue? 10 c = some d) :
    c.isDigit = true := by
  have hrange := range_of_digitValue? h
  have hzero : '0'.toNat = 0x30 := rfl
  have hnine : '9'.toNat = 0x39 := rfl
  rw [Char.isDigit_iff_toNat, hzero, hnine]
  omega

/-- The character for a digit has the value of that digit. -/
theorem digitValue?_digitChar {d : Nat} (hd : d < radix) (hradix : radix ≤ 16) :
    digitValue? radix d.digitChar = some d := by
  have hchar : ∀ d < 16, d.digitChar.toNat = if d < 10 then 0x30 + d else 0x61 + (d - 10) := by
    decide
  unfold digitValue?
  simp only [hchar d (by omega), Option.ite_none_right_eq_some, Option.some.injEq,
    Bool.and_eq_true, decide_eq_true_eq]
  by_cases hten : d < 10
  · simp only [hten, if_true]
    rw [if_pos (by omega)]
    omega
  · simp only [hten, if_false]
    rw [if_neg (by omega), if_pos (by omega)]
    omega

theorem WritesNat.exists_digit (h : WritesNat radix cs n) :
    ∀ c ∈ cs, ∃ d, digitValue? radix c = some d := by
  obtain ⟨-, ds, hds, -⟩ := h
  induction hds with
  | nil => exact List.forall_mem_nil _
  | cons hd _ ih => exact List.forall_mem_cons.mpr ⟨⟨_, hd⟩, ih⟩

/-- A signed numeral is signs and digits. -/
theorem isDigit_or_sign_of_signed? {i : Int} {c : Char} (h : signed? 10 cs = some i)
    (hc : c ∈ cs) :
    c.isDigit = true ∨ c = '+' ∨ c = '-' := by
  have hdigits : ∀ {ds : List Char} {n : Nat}, WritesNat 10 ds n → c ∈ ds → c.isDigit = true := by
    intro ds n hds hmem
    obtain ⟨d, hd⟩ := hds.exists_digit c hmem
    exact isDigit_of_digitValue? hd
  cases signed?_eq_some_iff.mp h with
  | plain hn => exact Or.inl (hdigits hn hc)
  | plus hn =>
      rcases List.mem_cons.mp hc with rfl | hc
      · exact Or.inr (Or.inl rfl)
      · exact Or.inl (hdigits hn hc)
  | minus hn =>
      rcases List.mem_cons.mp hc with rfl | hc
      · exact Or.inr (Or.inr rfl)
      · exact Or.inl (hdigits hn hc)

/-- The digits that are written for a number write it. -/
theorem writesNat_toDigits (hlow : 1 < radix) (hhigh : radix ≤ 16) (n : Nat) :
    WritesNat radix (Nat.toDigits radix n) n := by
  induction n using Nat.strongRecOn with
  | ind n ih =>
      rw [Nat.toDigits_eq_if hlow]
      split
      case isTrue hn =>
        refine ⟨List.cons_ne_nil _ _, [n], .cons (digitValue?_digitChar hn hhigh) .nil, ?_⟩
        exact (Nat.ofDigits_singleton).symm
      case isFalse hn =>
        obtain ⟨-, ds, hds, hvalue⟩ := ih (n / radix) (Nat.div_lt_self (by omega) hlow)
        have hlast : n % radix < radix := Nat.mod_lt n (by omega)
        refine ⟨by simp, ds ++ [n % radix], ?_, ?_⟩
        · exact List.rel_append hds (.cons (digitValue?_digitChar hlast hhigh) .nil)
        · rw [List.reverse_append]
          show n = Nat.ofDigits radix (n % radix :: ds.reverse)
          rw [Nat.ofDigits_cons, ← hvalue]
          exact (Nat.mod_add_div n radix).symm

end Text

-- ============================================================ the amounts

namespace Numeric

variable {n : Nat}

open Decimal (Binary64)

/-- A natural number fits below half of 128 bits. -/
theorem fitsExact_natCast_iff : FitsExact n ↔ n < 2 ^ 127 := by
  unfold FitsExact
  omega

/-- A hexadecimal is an exact amount or none. -/
theorem parse?_hexadecimal {x : Char} {digits : List Char} (hx : x = 'x' ∨ x = 'X')
    (hdigits : Text.WritesNat 16 digits n) :
    parse? (String.ofList ('0' :: x :: digits)) = ofInt? n := by
  have hread : Text.signed? 16 digits = some (n : Int) :=
    Text.signed?_eq_some_iff.mpr (.plain hdigits)
  have hplain : ∀ c ∈ '0' :: x :: digits, Text.isBlank c = false := by
    intro c hc
    rcases List.mem_cons.mp hc with rfl | hc
    · rfl
    · rcases List.mem_cons.mp hc with rfl | hc
      · rcases hx with rfl | rfl <;> rfl
      · obtain ⟨d, hd⟩ := hdigits.exists_digit c hc
        exact Text.not_blank_of_digitValue? hd
  unfold parse?
  rw [String.toList_ofList, Text.trimmed_of_not_blank hplain]
  rcases hx with rfl | rfl
  · show (Text.signed? 16 digits).bind ofInt? = _
    rw [hread, Option.bind_some]
  · show (Text.signed? 16 digits).bind ofInt? = _
    rw [hread, Option.bind_some]

/-- A decimal is an exact amount, or the nearest double where that is finite. -/
theorem parse?_decimal {digits : List Char} (hdigits : Text.WritesNat 10 digits n) :
    parse? (String.ofList digits) = (ofInt? n).orElse fun _ =>
      if n < 2 ^ 1024 - 2 ^ 970 then some (.float (.ofInt n)) else none := by
  have hread : Text.signed? 10 digits = some (n : Int) :=
    Text.signed?_eq_some_iff.mpr (.plain hdigits)
  have hdigit : ∀ c ∈ digits, c.isDigit = true := by
    intro c hc
    obtain ⟨d, hd⟩ := hdigits.exists_digit c hc
    exact Text.isDigit_of_digitValue? hd
  have hliteral : Decimal.literal? digits = some (.ofInt n) := by
    rw [Decimal.literal?_of_isDigit hdigit (Text.natural?_eq_some_iff.mpr hdigits),
      Binary64.ofDecimal_zero]
  have hfinite : (Binary64.ofInt n).isFinite = decide (n < 2 ^ 1024 - 2 ^ 970) := by
    rw [Bool.eq_iff_iff, Binary64.isFinite_ofInt_iff, Int.natAbs_natCast, decide_eq_true_iff]
  unfold parse?
  rw [String.toList_ofList,
    Text.trimmed_of_not_blank fun c hc => Text.not_blank_of_isDigit (hdigit c hc)]
  split
  · exact absurd rfl hdigits.1
  · exact absurd (hdigit 'x' (by simp)) (by decide)
  · exact absurd (hdigit 'X' (by simp)) (by decide)
  · rw [hread, Option.bind_some, hliteral, Option.filter_some, hfinite]
    by_cases hlow : n < 2 ^ 1024 - 2 ^ 970
    · rw [decide_eq_true hlow, if_pos rfl, if_pos hlow]
      rfl
    · rw [decide_eq_false hlow, if_neg Bool.false_ne_true, if_neg hlow]
      rfl

/-- The two notations of a number agree where it is exact, and where it is past every double;
in between the decimal alone is an amount. -/
theorem notations_agree_iff {x : Char} {hexadecimal decimal : List Char}
    (hx : x = 'x' ∨ x = 'X') (hhexadecimal : Text.WritesNat 16 hexadecimal n)
    (hdecimal : Text.WritesNat 10 decimal n) :
    (parse? (String.ofList ('0' :: x :: hexadecimal)) = parse? (String.ofList decimal)
        ↔ n < 2 ^ 127 ∨ 2 ^ 1024 - 2 ^ 970 ≤ n)
      ∧ (∀ fits : FitsExact n,
        parse? (String.ofList ('0' :: x :: hexadecimal)) = some (.int n fits)
          ∧ parse? (String.ofList decimal) = some (.int n fits))
      ∧ (2 ^ 127 ≤ n → n < 2 ^ 1024 - 2 ^ 970 →
        parse? (String.ofList ('0' :: x :: hexadecimal)) = none
          ∧ parse? (String.ofList decimal) = some (.float (.ofInt n)))
      ∧ (2 ^ 1024 - 2 ^ 970 ≤ n →
        parse? (String.ofList ('0' :: x :: hexadecimal)) = none
          ∧ parse? (String.ofList decimal) = none) := by
  have hbounds : 2 ^ 127 ≤ 2 ^ 1024 - 2 ^ 970 := by decide +kernel
  have hpast : 2 ^ 127 ≤ n → ofInt? n = none := fun hn =>
    ofInt?_of_not_fits (mt fitsExact_natCast_iff.mp (Nat.not_lt.mpr hn))
  rw [parse?_hexadecimal hx hhexadecimal, parse?_decimal hdecimal]
  refine ⟨?_, ?_, ?_, ?_⟩
  · by_cases hexact : n < 2 ^ 127
    · rw [ofInt?_of_fits (fitsExact_natCast_iff.mpr hexact)]
      exact iff_of_true rfl (Or.inl hexact)
    · rw [hpast (Nat.le_of_not_lt hexact)]
      by_cases hfinite : n < 2 ^ 1024 - 2 ^ 970
      · rw [if_pos hfinite]
        exact iff_of_false nofun fun h => h.elim hexact (Nat.not_le.mpr hfinite)
      · rw [if_neg hfinite]
        exact iff_of_true rfl (Or.inr (Nat.le_of_not_lt hfinite))
  · intro fits
    rw [ofInt?_of_fits fits]
    exact ⟨rfl, rfl⟩
  · intro hn hfinite
    rw [hpast hn, if_pos hfinite]
    exact ⟨rfl, rfl⟩
  · intro hn
    rw [hpast (Nat.le_trans hbounds hn), if_neg (Nat.not_lt.mpr hn)]
    exact ⟨rfl, rfl⟩

/-- The greatest exact integer in either notation. -/
theorem notations_agree_on_greatest :
    let greatest := 0x7FFFFFFFFFFFFFFFFFFFFFFFFFFFFFFF
    Text.WritesNat 16 (Nat.toDigits 16 greatest) greatest
      ∧ Text.WritesNat 10 (Nat.toDigits 10 greatest) greatest
      ∧ parse? (String.ofList ('0' :: 'x' :: Nat.toDigits 16 greatest))
        = parse? (String.ofList (Nat.toDigits 10 greatest)) := by
  intro greatest
  have hhexadecimal : Text.WritesNat 16 (Nat.toDigits 16 greatest) greatest :=
    Text.writesNat_toDigits (by decide) (by decide) greatest
  have hdecimal : Text.WritesNat 10 (Nat.toDigits 10 greatest) greatest :=
    Text.writesNat_toDigits (by decide) (by decide) greatest
  have hagree := (notations_agree_iff (Or.inl rfl) hhexadecimal hdecimal).1
  exact ⟨hhexadecimal, hdecimal, hagree.mpr (Or.inl (by decide))⟩

/-- One more than the greatest exact integer is an amount in decimal, and none in hexadecimal. -/
theorem notations_differ_past_greatest :
    parse? "0x80000000000000000000000000000000" = none
      ∧ parse? "170141183460469231731687303715884105728"
        = some (.float ⟨0x47E0000000000000⟩) := by
  decide +kernel

end Numeric
end EventScript
