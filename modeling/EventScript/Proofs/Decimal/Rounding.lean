/-
Whole numbers as doubles. The bits of the double nearest to a number that is not negative are
worked out from its logarithm and one rounded quotient, and stop at those of infinity. Where
they do is told here in the number itself: halfway between the greatest double and the power of
two that would follow it, which is as near and has the even fraction.

No whole number but zero is zero as a double, since each other has a bit in its exponent.
-/
import Mathlib.Algebra.Order.GroupWithZero.Basic
import Mathlib.Algebra.Order.Ring.Nat
import EventScript.Decimal.Binary64

namespace EventScript.Decimal.Binary64

-- =============================================================== the bits

/-- A bit pattern without the sign is found again under either sign. -/
theorem magnitudeBits_ofMagnitudeBits (negative : Bool) {m : Nat} (h : m ≤ infinityBits) :
    (ofMagnitudeBits negative m).magnitudeBits = m := by
  unfold infinityBits at h
  unfold magnitudeBits ofMagnitudeBits signBit
  rw [UInt64.toNat_ofNat']
  cases negative with
  | false =>
      simp only [Bool.false_eq_true, if_false]
      omega
  | true =>
      simp only [if_true]
      omega

/-- A pattern with a bit in its exponent is worth something. -/
theorem unitsOfBits_pos {m : Nat} (h : exponentBit ≤ m) : 0 < unitsOfBits m := by
  unfold exponentBit at h
  unfold unitsOfBits exponentBit
  dsimp only
  rw [if_neg (by omega), Nat.shiftLeft_eq]
  exact Nat.mul_pos (by omega) (Nat.two_pow_pos _)

-- =========================================================== the rounding

/-- A quotient is rounded past an odd number from halfway on. -/
theorem lt_roundDiv_iff_of_odd {num den m : Nat} (hden : 0 < den) (hodd : m % 2 = 1) :
    m < roundDiv num den ↔ (2 * m + 1) * den ≤ 2 * num := by
  have hnum : den * (num / den) + num % den = num := Nat.div_add_mod num den
  have hrest : num % den < den := Nat.mod_lt num hden
  have hhalf : (2 * m + 1) * den = 2 * (den * m) + den := by
    rw [Nat.add_mul, Nat.one_mul, Nat.mul_assoc, Nat.mul_comm m den]
  unfold roundDiv
  dsimp only
  rw [hhalf]
  rcases Nat.lt_trichotomy m (num / den) with hlt | heq | hgt
  · -- the quotient is past the number before it is rounded
    have hpast : den * (m + 1) ≤ den * (num / den) := Nat.mul_le_mul_left den hlt
    rw [Nat.mul_succ] at hpast
    have hrounded : m < num / den + 1 := Nat.lt_succ_of_lt hlt
    split
    · omega
    · split
      · omega
      · split <;> omega
  · -- what is left over decides, and of two halves the upper is the even one
    rw [← heq] at hnum ⊢
    split
    · omega
    · split
      · omega
      · rw [if_neg (by omega)]
        omega
  · have hbelow : den * (num / den + 1) ≤ den * m := Nat.mul_le_mul_left den hgt
    rw [Nat.mul_succ] at hbelow
    split
    · omega
    · split
      · omega
      · split <;> omega

/-- The rounded quotient is at least the whole part. -/
theorem le_roundDiv (num den : Nat) : num / den ≤ roundDiv num den := by
  unfold roundDiv
  dsimp only
  split
  · exact Nat.le_refl _
  · split
    · exact Nat.le_succ _
    · split
      · exact Nat.le_refl _
      · exact Nat.le_succ _

theorem roundDiv_le (num den : Nat) : roundDiv num den ≤ num / den + 1 := by
  unfold roundDiv
  dsimp only
  split
  · exact Nat.le_succ _
  · split
    · exact Nat.le_refl _
    · split
      · exact Nat.le_succ _
      · exact Nat.le_refl _

-- ====================================================== the nearest double

/-- The bits of the double nearest to a number, before they stop at those of infinity. -/
def roundedBits (n : Nat) : Nat :=
  let s := (n <<< unitShift).log2 - 52
  s * exponentBit + roundDiv (n <<< unitShift) (1 <<< s)

/-- The double nearest to an integer has the bits of its size, capped at infinity. -/
theorem ofInt_eq (i : Int) :
    ofInt i = ofMagnitudeBits (i < 0) (min (roundedBits i.natAbs) infinityBits) := by
  unfold ofInt ofRatio
  dsimp only
  rw [Nat.div_one]
  rfl

theorem magnitudeBits_ofInt (i : Int) :
    (ofInt i).magnitudeBits = min (roundedBits i.natAbs) infinityBits := by
  rw [ofInt_eq, magnitudeBits_ofMagnitudeBits _ (Nat.min_le_right _ _)]

variable {n : Nat}

/-- A number in units is as many bits longer as a unit is below one. -/
theorem log2_units (hn : n ≠ 0) : (n <<< unitShift).log2 = n.log2 + unitShift := by
  have hpos : 0 < 2 ^ unitShift := Nat.two_pow_pos _
  have hlow : 2 ^ n.log2 ≤ n := Nat.log2_self_le hn
  have hhigh : n < 2 ^ (n.log2 + 1) := Nat.lt_log2_self
  rw [Nat.shiftLeft_eq]
  refine (Nat.log2_eq_iff (Nat.mul_ne_zero hn (Nat.ne_of_gt hpos))).mpr ⟨?_, ?_⟩
  · rw [Nat.pow_add]
    exact Nat.mul_le_mul_right _ hlow
  · rw [Nat.add_right_comm, Nat.pow_add]
    exact Nat.mul_lt_mul_of_pos_right hhigh hpos

/-- The bits of a size: the exponent from its length, and the rounded quotient by the step of
that exponent. -/
theorem roundedBits_eq (hn : n ≠ 0) :
    roundedBits n = (n.log2 + 1022) * exponentBit
      + roundDiv (n <<< unitShift) (1 <<< (n.log2 + 1022)) := by
  unfold roundedBits
  rw [log2_units hn]
  rfl

theorem step_pos (l : Nat) : 0 < 1 <<< l := by
  rw [Nat.one_shiftLeft]
  exact Nat.two_pow_pos l

/-- The least number of some length in units, in steps of a double of that length. -/
theorem exponentBit_steps (l : Nat) : exponentBit * 1 <<< (l + 1022) = 2 ^ l * 2 ^ unitShift := by
  have hbit : exponentBit = 2 ^ 52 := rfl
  have hlength : 52 + (l + 1022) = l + unitShift := by
    unfold unitShift
    omega
  rw [hbit, Nat.one_shiftLeft, ← Nat.pow_add, ← Nat.pow_add, hlength]

/-- The rounded quotient is the fraction with the bit before it; it may carry into the next
exponent. -/
theorem roundDiv_bounds (hn : n ≠ 0) :
    exponentBit ≤ roundDiv (n <<< unitShift) (1 <<< (n.log2 + 1022))
      ∧ roundDiv (n <<< unitShift) (1 <<< (n.log2 + 1022)) ≤ 2 * exponentBit := by
  have hpos := step_pos (n.log2 + 1022)
  have hlow : exponentBit * 1 <<< (n.log2 + 1022) ≤ n <<< unitShift := by
    rw [exponentBit_steps, Nat.shiftLeft_eq]
    exact Nat.mul_le_mul_right _ (Nat.log2_self_le hn)
  have hhigh : n <<< unitShift < 2 * exponentBit * 1 <<< (n.log2 + 1022) := by
    rw [Nat.mul_assoc, exponentBit_steps, ← Nat.mul_assoc, Nat.shiftLeft_eq, ← Nat.pow_succ']
    exact Nat.mul_lt_mul_of_pos_right Nat.lt_log2_self (Nat.two_pow_pos _)
  have hquotient := (Nat.le_div_iff_mul_le hpos).mpr hlow
  have hquotient' := (Nat.div_lt_iff_lt_mul hpos).mpr hhigh
  have hle := le_roundDiv (n <<< unitShift) (1 <<< (n.log2 + 1022))
  have hge := roundDiv_le (n <<< unitShift) (1 <<< (n.log2 + 1022))
  omega

-- ================================================================== zero

/-- A whole number but zero has a bit in its exponent, so it is worth something. -/
theorem magnitude_ofInt_pos {i : Int} (h : i ≠ 0) : 0 < (ofInt i).magnitude := by
  have hne : i.natAbs ≠ 0 := Int.natAbs_ne_zero.mpr h
  unfold magnitude
  rw [magnitudeBits_ofInt, roundedBits_eq hne]
  apply unitsOfBits_pos
  refine Nat.le_min.mpr ⟨?_, by decide⟩
  exact Nat.le_trans (roundDiv_bounds hne).1 (Nat.le_add_left _ _)

/-- No integer but zero is zero as a double. -/
theorem sameValue_ofInt_zero {i : Int} (h : i ≠ 0) : (ofInt i).sameValue zero = false := by
  have hpos := magnitude_ofInt_pos h
  have hunits : (ofInt i).units ≠ 0 := by
    unfold units
    split <;> omega
  have hzero : zero.units = 0 := by decide
  unfold sameValue compare?
  split
  · rfl
  · rw [hzero]
    simpa [Int.compare_eq_eq] using hunits

-- ============================================================ the overflow

/-- Halfway between the two greatest fractions, in steps of the greatest doubles. -/
theorem halfway_steps :
    (2 * (2 * exponentBit - 1) + 1) * 1 <<< (1023 + 1022)
      = (2 ^ 1024 - 2 ^ 970) * (2 * 2 ^ unitShift) := by
  have hfraction : 2 * (2 * exponentBit - 1) + 1 = 2 ^ 54 - 1 := rfl
  have hlength : 1023 + 1022 = 970 + (unitShift + 1) := rfl
  have hnext : 54 + 970 = 1024 := rfl
  rw [hfraction, Nat.one_shiftLeft, hlength, pow_add, ← Nat.mul_assoc, Nat.sub_mul, ← pow_add,
    hnext, Nat.one_mul, pow_succ' _ unitShift]

/-- The bits reach those of infinity halfway between the greatest double and the power of two
that would follow it. -/
theorem infinityBits_le_roundedBits_iff :
    infinityBits ≤ roundedBits n ↔ 2 ^ 1024 - 2 ^ 970 ≤ n := by
  have hgap : 2 ^ 970 ≤ 2 ^ 1023 := pow_le_pow_right₀ (by decide : 1 ≤ 2) (by decide)
  have hhalf : 0 < 2 ^ 970 := pow_pos Nat.two_pos 970
  have hnext := pow_succ' 2 1023
  rw [show 1023 + 1 = 1024 from rfl] at hnext
  by_cases hn : n = 0
  · have hzero : roundedBits 0 = 0 := rfl
    have hinfinity : 0 < infinityBits := by decide
    rw [hn, hzero]
    omega
  · have hbounds := roundDiv_bounds hn
    have hlow : 2 ^ n.log2 ≤ n := Nat.log2_self_le hn
    have hhigh : n < 2 ^ (n.log2 + 1) := Nat.lt_log2_self
    rw [roundedBits_eq hn]
    -- in the last binade what rounds up becomes infinite, and the tie does
    rcases Nat.lt_trichotomy n.log2 1023 with hlt | heq | hgt
    · have hpow : 2 ^ (n.log2 + 1) ≤ 2 ^ 1023 := pow_le_pow_right₀ (by decide : 1 ≤ 2) hlt
      unfold infinityBits exponentBit at *
      omega
    · have hround : infinityBits ≤ (1023 + 1022) * exponentBit
            + roundDiv (n <<< unitShift) (1 <<< (1023 + 1022))
          ↔ 2 * exponentBit - 1 < roundDiv (n <<< unitShift) (1 <<< (1023 + 1022)) := by
        unfold infinityBits exponentBit
        omega
      have hunits : 2 * n <<< unitShift = n * (2 * 2 ^ unitShift) := by
        rw [Nat.shiftLeft_eq, Nat.mul_left_comm]
      have hodd : (2 * exponentBit - 1) % 2 = 1 := by decide
      rw [heq, hround, lt_roundDiv_iff_of_odd (step_pos _) hodd, halfway_steps, hunits]
      exact Nat.mul_le_mul_right_iff (Nat.mul_pos Nat.two_pos (Nat.two_pow_pos unitShift))
    · have hpow : 2 ^ 1024 ≤ 2 ^ n.log2 := pow_le_pow_right₀ (by decide : 1 ≤ 2) hgt
      unfold infinityBits exponentBit at *
      omega

/-- An integer is finite as a double below that. -/
theorem isFinite_ofInt_iff {i : Int} :
    (ofInt i).isFinite = true ↔ i.natAbs < 2 ^ 1024 - 2 ^ 970 := by
  rw [← Nat.not_le, ← infinityBits_le_roundedBits_iff, isFinite, decide_eq_true_iff,
    magnitudeBits_ofInt]
  omega

/-- A decimal without fraction is the double nearest to the number its digits write. The short
way for long ones comes to infinity, as they do. -/
theorem ofDecimal_zero (n : Nat) : ofDecimal false n 0 = ofInt n := by
  have hsign : decide ((n : Int) < 0) = false := decide_eq_false (by omega)
  unfold ofDecimal
  dsimp only
  split
  case isTrue hzero =>
    rw [hzero]
    decide
  case isFalse =>
    split
    case isTrue hlong =>
      have hdigits : 10 ^ 310 ≤ n := by
        rw [← Nat.not_lt, ← Nat.length_toDigits_le_iff (by decide) (by decide)]
        omega
      have hgreat : 2 ^ 1024 ≤ 10 ^ 310 := by decide +kernel
      have hinfinity : infinityBits ≤ roundedBits n :=
        infinityBits_le_roundedBits_iff.mpr (by omega)
      rw [ofInt_eq, hsign, Int.natAbs_natCast, Nat.min_eq_right hinfinity]
      rfl
    case isFalse =>
      rw [if_neg (by omega), if_pos (Int.le_refl 0)]
      unfold ofInt
      rw [hsign, Int.natAbs_natCast]
      show ofRatio false (n * 1) 1 = _
      rw [Nat.mul_one]

end EventScript.Decimal.Binary64
