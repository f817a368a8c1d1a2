/-
Powers of integers. A base of two or more in magnitude leaves 128 bits by the exponent 128 and
makes a fraction with a negative one, so its powers that fit have small exponents; these are
computed exactly, and the short way taken for great exponents loses none.

Zero, one and minus one have powers that fit for every exponent. They are computed exactly for
the exponents that are unsigned words of 32 bits only. A greater or a negative exponent is left
to the doubles, which do not even tell whether a great exponent is odd.
-/
import Mathlib.Algebra.Field.Rat
import Mathlib.Algebra.Order.Ring.Rat
import Mathlib.Algebra.Ring.Int.Parity
import Mathlib.Algebra.Ring.Int.Units
import Mathlib.Data.Int.Cast.Lemmas
import EventScript.Proofs.Numeric.Exactness

namespace EventScript.Numeric

variable {a b c : Int}

/-- The power is this integer; zero has no power with a negative exponent. -/
def IsPower (a b c : Int) : Prop := (b < 0 → a ≠ 0) ∧ (a : ℚ) ^ b = c

-- ============================================================== the range

/-- From two on, a base leaves the range at the exponent 128. -/
theorem not_fits_pow {n : Nat} (ha : 2 ≤ a.natAbs) (hn : 128 ≤ n) : ¬ FitsExact (a ^ n) := by
  have hpow : 2 ^ 128 ≤ (a ^ n).natAbs := by
    rw [Int.natAbs_pow]
    calc 2 ^ 128 ≤ 2 ^ n := Nat.pow_le_pow_right Nat.two_pos hn
      _ ≤ a.natAbs ^ n := Nat.pow_le_pow_left ha n
  unfold FitsExact
  omega

/-- The short way for great exponents loses no power that fits. -/
theorem intPow?_bind (a : Int) (n : Nat) : (intPow? a n).bind ofInt? = ofInt? (a ^ n) := by
  unfold intPow?
  split
  case isTrue => rfl
  case isFalse hn =>
    have hn : 128 ≤ n := Nat.lt_of_not_le hn
    by_cases hzero : a = 0
    · rw [if_pos hzero, hzero, zero_pow (by omega)]
      rfl
    · by_cases hone : a = 1
      · rw [if_neg hzero, if_pos hone, hone, one_pow]
        rfl
      · by_cases hminus : a = -1
        · rw [if_neg hzero, if_neg hone, if_pos hminus, hminus]
          by_cases heven : n % 2 = 0
          · rw [if_pos heven, (Nat.even_iff.mpr heven).neg_one_pow]
            rfl
          · rw [if_neg heven, (Nat.not_even_iff_odd.mp (heven ∘ Nat.even_iff.mp)).neg_one_pow]
            rfl
        · rw [if_neg hzero, if_neg hone, if_neg hminus, ofInt?_of_not_fits (not_fits_pow _ hn)]
          · rfl
          · omega

-- ============================================================ the powers

/-- For an exponent that is not negative it is the power of integers. -/
theorem isPower_iff_of_nonneg (hb : 0 ≤ b) : IsPower a b c ↔ a ^ b.toNat = c := by
  obtain ⟨n, rfl⟩ := Int.eq_ofNat_of_zero_le hb
  rw [IsPower, zpow_natCast, ← Int.cast_pow, Int.cast_inj]
  constructor
  · intro h
    exact h.2
  · intro h
    exact ⟨fun hneg => absurd hneg (Int.not_lt.mpr hb), h⟩

/-- From two on, a negative exponent makes a fraction of the base. -/
theorem nonneg_of_isPower (h : IsPower a b c) (ha : 2 ≤ a.natAbs) : 0 ≤ b := by
  by_contra hb
  obtain ⟨n, hn⟩ := Int.eq_ofNat_of_zero_le (show 0 ≤ -b by omega)
  have hbase : (a : ℚ) ≠ 0 := Int.cast_ne_zero.mpr (by omega)
  have hproduct : c * a ^ n = 1 := by
    have hpow := h.2
    rw [show b = -(n : Int) by omega, zpow_neg, zpow_natCast] at hpow
    have hcast : (c : ℚ) * (a : ℚ) ^ n = 1 := by
      rw [← hpow, inv_mul_cancel₀ (pow_ne_zero n hbase)]
    exact_mod_cast hcast
  have hunit : (a ^ n).natAbs = 1 :=
    Int.isUnit_iff_natAbs_eq.mp (IsUnit.of_mul_eq_one c (by rw [mul_comm, hproduct]))
  rw [Int.natAbs_pow] at hunit
  have hlarge : 2 ^ 1 ≤ a.natAbs ^ n :=
    (Nat.pow_le_pow_left ha 1).trans (Nat.pow_le_pow_right (by omega) (by omega))
  omega

/-- From two on, the exponent of a power that fits is small. -/
theorem exponent_lt_of_isPower (h : IsPower a b c) (ha : 2 ≤ a.natAbs) (hc : FitsExact c) :
    b < 128 := by
  by_contra hb
  have hpow := (isPower_iff_of_nonneg (nonneg_of_isPower h ha)).mp h
  refine not_fits_pow ha (n := b.toNat) (by omega) ?_
  rw [hpow]
  exact hc

/-- The code multiplies out the power where the exponent is a word of 32 bits, and keeps it where
it fits. -/
theorem exactResult?_pow_bind (a b : Int) :
    (exactResult? .pow a b).bind ofInt?
      = if 0 ≤ b ∧ b < 0x100000000 then ofInt? (a ^ b.toNat) else none := by
  unfold exactResult?
  dsimp only
  split
  · exact intPow?_bind a b.toNat
  · rfl

/-- Where the base is none of zero, one and minus one, the exponent of a power that fits is a
word. -/
theorem exponent_inWord (h : IsPower a b c) (hc : FitsExact c)
    (hbase : 2 ≤ a.natAbs ∨ 0 ≤ b ∧ b < 2 ^ 32) : 0 ≤ b ∧ b < 0x100000000 := by
  rcases hbase with ha | hword
  · have hnonneg := nonneg_of_isPower h ha
    have hsmall := exponent_lt_of_isPower h ha hc
    omega
  · omega

/-- A power that is an integer within 128 bits is computed exactly, unless its base is zero,
one or minus one and its exponent no word; and what is not computed exactly is computed in
doubles. -/
theorem powers_computed_exactly (ha : FitsExact a) (hb : FitsExact b) :
    (∀ c (hc : FitsExact c), apply .pow (.int a ha) (.int b hb) = some (.int c hc)
      ↔ IsPower a b c ∧ (2 ≤ a.natAbs ∨ 0 ≤ b ∧ b < 2 ^ 32))
      ∧ ((∃ c hc, apply .pow (.int a ha) (.int b hb) = some (.int c hc))
        ∨ apply .pow (.int a ha) (.int b hb)
          = some (.float (inexact .pow (.ofInt a) (.ofInt b)))) := by
  have hzero : Operation.pow = .divide → b ≠ 0 := nofun
  rw [apply_int hzero, exactResult?_pow_bind]
  by_cases hword : 0 ≤ b ∧ b < 0x100000000
  · rw [if_pos hword]
    by_cases hfits : FitsExact (a ^ b.toNat)
    · rw [ofInt?_of_fits hfits]
      refine ⟨?_, Or.inl ⟨_, hfits, rfl⟩⟩
      intro c hc
      rw [isPower_iff_of_nonneg hword.1]
      simpa using fun _ => Or.inr hword
    · rw [ofInt?_of_not_fits hfits]
      refine ⟨?_, Or.inr rfl⟩
      intro c hc
      simp only [Option.getD_none, Option.some.injEq, reduceCtorEq, false_iff]
      rintro ⟨hpower, -⟩
      rw [(isPower_iff_of_nonneg hword.1).mp hpower] at hfits
      exact hfits hc
  · rw [if_neg hword]
    refine ⟨?_, Or.inr rfl⟩
    intro c hc
    simp only [Option.getD_none, Option.some.injEq, reduceCtorEq, false_iff]
    rintro ⟨hpower, hbase⟩
    exact hword (exponent_inWord hpower hc hbase)

/-- The least power of minus two that is within 128 bits is the least integer there is. -/
theorem minus_two_to_127 :
    let least := -0x80000000000000000000000000000000
    ∃ (hbase : FitsExact (-2)) (hexponent : FitsExact 127) (hleast : FitsExact least),
      apply .pow (.int (-2) hbase) (.int 127 hexponent) = some (.int least hleast) := by
  intro least
  have hbase : FitsExact (-2) := by decide
  have hexponent : FitsExact 127 := by decide
  have hleast : FitsExact least := by decide
  have hpower : IsPower (-2) 127 least := (isPower_iff_of_nonneg (by decide)).mpr (by decide)
  obtain ⟨hexact, -⟩ := powers_computed_exactly hbase hexponent
  exact ⟨hbase, hexponent, hleast, (hexact least hleast).mpr ⟨hpower, Or.inl (by decide)⟩⟩

/-- Minus one to a great odd exponent is minus one, and is not computed as that: the doubles
give the same for the even exponent before it, where the power is one. -/
theorem great_odd_exponent_is_not_exact :
    let even := 0x20000000000000
    let odd := 0x20000000000001
    ∃ (hbase : FitsExact (-1)) (heven : FitsExact even) (hodd : FitsExact odd),
      IsPower (-1) odd (-1) ∧ IsPower (-1) even 1
        ∧ apply .pow (.int (-1) hbase) (.int odd hodd) ≠ some (.int (-1) hbase)
        ∧ apply .pow (.int (-1) hbase) (.int odd hodd)
          = apply .pow (.int (-1) hbase) (.int even heven) := by
  intro even odd
  have hbase : FitsExact (-1) := by decide
  have heven : FitsExact even := by decide
  have hodd : FitsExact odd := by decide
  have hdoubles : ∀ {b : Int} (hb : FitsExact b), ¬ (0 ≤ b ∧ b < 0x100000000) →
      apply .pow (.int (-1) hbase) (.int b hb)
        = some (.float (inexact .pow (.ofInt (-1)) (.ofInt b))) := by
    intro b hb hword
    have hzero : Operation.pow = .divide → b ≠ 0 := nofun
    rw [apply_int hzero, exactResult?_pow_bind, if_neg hword]
    rfl
  have hsame : Decimal.Binary64.ofInt odd = .ofInt even := by decide +kernel
  refine ⟨hbase, heven, hodd, ?_, ?_, ?_, ?_⟩
  · rw [isPower_iff_of_nonneg (by decide)]
    exact Odd.neg_one_pow (by decide)
  · rw [isPower_iff_of_nonneg (by decide)]
    exact Even.neg_one_pow (by decide)
  · rw [hdoubles hodd (by decide)]
    nofun
  · rw [hdoubles hodd (by decide), hdoubles heven (by decide), hsame]

end EventScript.Numeric
