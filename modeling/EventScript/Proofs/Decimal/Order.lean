/-
The order of doubles, and where integers stand in it. Two doubles that are numbers compare by
what they are worth, as rationals. An integer that is compared with a double is made a double
first, the nearest one; so whether it stands before or after the double is told rightly, except
that it counts as equal to the double it is rounded to.

Rounding cannot carry an integer past a double, because it is the double itself that is nearest
to its own worth. Up to two to the power of 53, every integer is worth the same as a double.
-/
import Mathlib.Algebra.Order.Field.Basic
import Mathlib.Algebra.Order.Field.Rat
import Mathlib.Data.Rat.Cast.Order
import EventScript.Proofs.Decimal.Nearest

namespace EventScript.Decimal.Binary64

variable {x y : Binary64} {i j : Int}

-- ============================================================== comparing

theorem isNaN_of_isFinite (h : x.isFinite = true) : x.isNaN = false := by
  unfold isFinite at h
  unfold isNaN
  rw [decide_eq_true_iff] at h
  exact decide_eq_false (Nat.lt_asymm h)

/-- Two finite doubles compare by their units. -/
theorem compare?_of_isFinite (hx : x.isFinite = true) (hy : y.isFinite = true) :
    x.compare? y = some (compare x.units y.units) := by
  unfold compare?
  rw [isNaN_of_isFinite hx, isNaN_of_isFinite hy]
  rfl

/-- Seen from the other side, two doubles compare the other way round. -/
theorem compare?_swap (x y : Binary64) : (x.compare? y).map Ordering.swap = y.compare? x := by
  unfold compare?
  rw [Bool.or_comm]
  split
  · rfl
  · exact congrArg some (Std.OrientedOrd.eq_swap).symm

theorem sameValue_comm (x y : Binary64) : x.sameValue y = y.sameValue x := by
  unfold sameValue
  rw [← compare?_swap x y]
  rcases x.compare? y with _ | _ | _ | _ <;> rfl

-- ============================================================= the worth

/-- The number that a finite double is. -/
def value (x : Binary64) : ℚ := x.units / 2 ^ unitShift

theorem two_pow_unitShift_pos : (0 : ℚ) < 2 ^ unitShift := pow_pos two_pos unitShift

/-- Two doubles are worth the same exactly if they have the same units. -/
theorem value_eq_value_iff : x.value = y.value ↔ x.units = y.units := by
  unfold value
  rw [div_left_inj' two_pow_unitShift_pos.ne', Int.cast_inj]

/-- An integer in units. -/
def unitsOfInt (i : Int) : Int := i * 2 ^ unitShift

/-- An integer in units is the integer times the units in one. -/
theorem unitsOfInt_cast (i : Int) : (unitsOfInt i : ℚ) = i * 2 ^ unitShift := by
  unfold unitsOfInt
  rw [Int.cast_mul, Int.cast_pow, Int.cast_ofNat]

theorem unitsOfInt_neg (i : Int) : unitsOfInt (-i) = -unitsOfInt i := Int.neg_mul _ _

/-- Counting in units keeps the order of the integers. -/
theorem unitsOfInt_lt_iff : unitsOfInt i < unitsOfInt j ↔ i < j :=
  Int.mul_lt_mul_right (pow_pos two_pos unitShift)

theorem unitsOfInt_neg_iff : unitsOfInt i < 0 ↔ i < 0 := by
  have horder := unitsOfInt_lt_iff (i := i) (j := 0)
  have hzero : unitsOfInt 0 = 0 := Int.zero_mul _
  rwa [hzero] at horder

/-- An integer is below a double when it is fewer units. -/
theorem intCast_lt_value_iff : (i : ℚ) < x.value ↔ unitsOfInt i < x.units := by
  unfold value
  rw [lt_div_iff₀ two_pow_unitShift_pos, ← unitsOfInt_cast, Int.cast_lt]

/-- A double is compared with an integer by their units. -/
theorem value_lt_intCast_iff : x.value < (i : ℚ) ↔ x.units < unitsOfInt i := by
  unfold value
  rw [div_lt_iff₀ two_pow_unitShift_pos, ← unitsOfInt_cast, Int.cast_lt]

theorem value_eq_intCast_iff : x.value = (i : ℚ) ↔ x.units = unitsOfInt i := by
  unfold value
  rw [div_eq_iff two_pow_unitShift_pos.ne', ← unitsOfInt_cast, Int.cast_inj]

-- =========================================================== the integers

/-- The sign of a pattern put together is the one it was given. -/
theorem isNegative_ofMagnitudeBits (negative : Bool) {m : Nat} (h : m ≤ infinityBits) :
    (ofMagnitudeBits negative m).isNegative = negative := by
  unfold infinityBits at h
  unfold isNegative ofMagnitudeBits signBit
  rw [UInt64.toNat_ofNat']
  cases negative with
  | false =>
      simp only [Bool.false_eq_true, if_false, decide_eq_false_iff_not]
      omega
  | true =>
      simp only [if_true, decide_eq_true_eq]
      omega

/-- A double is its sign and its magnitude. -/
theorem ofMagnitudeBits_magnitudeBits (x : Binary64) :
    ofMagnitudeBits x.isNegative x.magnitudeBits = x := by
  obtain ⟨bits⟩ := x
  have hlt : bits.toNat < 2 * signBit := bits.toNat_lt
  unfold ofMagnitudeBits isNegative magnitudeBits
  refine congrArg Binary64.mk (UInt64.toNat_inj.mp ?_)
  rw [UInt64.toNat_ofNat']
  unfold signBit at *
  simp only [decide_eq_true_eq]
  split <;> omega

/-- The nearest double has the sign of the integer. -/
theorem isNegative_ofInt (i : Int) : (ofInt i).isNegative = decide (i < 0) := by
  rw [ofInt_eq, isNegative_ofMagnitudeBits _ (Nat.min_le_right _ _)]

/-- The bits of an integer are those of the double nearest to its size. -/
theorem nearest_ofInt (h : (ofInt i).isFinite = true) :
    Nearest (ofInt i).magnitudeBits (i.natAbs <<< unitShift) 1 := by
  have hbits : ratioBits (i.natAbs <<< unitShift) 1 = roundedBits i.natAbs := by
    unfold ratioBits roundedBits
    rw [Nat.div_one]
  rw [isFinite, decide_eq_true_iff, magnitudeBits_ofInt] at h
  rw [magnitudeBits_ofInt, Nat.min_eq_left (by omega), ← hbits]
  exact nearest_ratioBits _ Nat.one_pos

/-- The double of an integer has the sign of the integer and the magnitude it rounds to. -/
theorem units_ofInt (i : Int) :
    (ofInt i).units = if i < 0 then -((ofInt i).magnitude : Int) else (ofInt i).magnitude := by
  unfold units
  rw [isNegative_ofInt]
  by_cases h : i < 0 <;> simp [h]

/-- The double nearest to the negated integer is the negated one. -/
theorem units_neg_ofInt (i : Int) : (ofInt (-i)).units = -(ofInt i).units := by
  have hmagnitude : (ofInt (-i)).magnitude = (ofInt i).magnitude := by
    unfold magnitude
    rw [magnitudeBits_ofInt, magnitudeBits_ofInt, Int.natAbs_neg]
  have hzero : (ofInt 0).magnitude = 0 := by decide
  rw [units_ofInt, units_ofInt, hmagnitude]
  rcases Int.lt_trichotomy i 0 with h | rfl | h
  · rw [if_neg (by omega), if_pos h, Int.neg_neg]
  · rw [hzero]
    rfl
  · rw [if_pos (by omega), if_neg (by omega)]

theorem isFinite_neg_ofInt (i : Int) : (ofInt (-i)).isFinite = (ofInt i).isFinite := by
  unfold isFinite
  rw [magnitudeBits_ofInt, magnitudeBits_ofInt, Int.natAbs_neg]

/-- The units of a bit pattern with a sign. -/
def signedUnits (negative : Bool) (k : Nat) : Int :=
  if negative then -(unitsOfBits k : Int) else unitsOfBits k

/-- The units of a double are those of its bits under its sign. -/
theorem units_eq_signedUnits (x : Binary64) :
    x.units = signedUnits x.isNegative x.magnitudeBits :=
  rfl

theorem signedUnits_not (negative : Bool) (k : Nat) :
    signedUnits (!negative) k = -signedUnits negative k := by
  cases negative <;> simp [signedUnits]

/-- The size of an integer in units. -/
theorem natAbs_shiftLeft (i : Int) :
    ((i.natAbs <<< unitShift : Nat) : Int) = if i < 0 then -unitsOfInt i else unitsOfInt i := by
  rw [Nat.shiftLeft_eq, Int.natCast_mul, Int.natCast_pow]
  unfold unitsOfInt
  split
  case isTrue h =>
    rw [Int.ofNat_natAbs_of_nonpos (Int.le_of_lt h), Int.neg_mul]
    rfl
  case isFalse h =>
    rw [Int.natAbs_of_nonneg (Int.not_lt.mp h)]
    rfl

/-- What stands at an integer or before it does so still when the integer is rounded. -/
theorem signedUnits_le_ofInt (hi : (ofInt i).isFinite = true) (negative : Bool) (k : Nat)
    (h : signedUnits negative k ≤ unitsOfInt i) : signedUnits negative k ≤ (ofInt i).units := by
  have hnearest := nearest_ofInt hi
  have hmono := unitsOfBits_strictMono.monotone
  have hsize := natAbs_shiftLeft i
  have hsign := unitsOfInt_neg_iff (i := i)
  rw [units_ofInt]
  unfold magnitude
  unfold signedUnits at h ⊢
  by_cases hneg : i < 0
  · -- what stands before it is negative too, and of no lesser size
    rw [if_pos hneg] at hsize ⊢
    cases negative with
    | false =>
        rw [if_neg Bool.false_ne_true] at h
        omega
    | true =>
        rw [if_pos rfl] at h ⊢
        have hbits := hmono (hnearest.le_of_ge Nat.one_pos (k := k) (by omega))
        omega
  · rw [if_neg hneg] at hsize ⊢
    cases negative with
    | false =>
        rw [if_neg Bool.false_ne_true] at h ⊢
        have hbits := hmono (hnearest.le_of_le Nat.one_pos (k := k) (by omega))
        omega
    | true =>
        rw [if_pos rfl]
        omega

/-- Rounding an integer does not pass a double that is not above it. -/
theorem units_le_ofInt (hi : (ofInt i).isFinite = true) (h : x.units ≤ unitsOfInt i) :
    x.units ≤ (ofInt i).units :=
  signedUnits_le_ofInt hi x.isNegative x.magnitudeBits h

/-- Rounding an integer does not pass a double that is not below it. -/
theorem ofInt_le_units (hi : (ofInt i).isFinite = true) (h : unitsOfInt i ≤ x.units) :
    (ofInt i).units ≤ x.units := by
  rw [units_eq_signedUnits x] at h ⊢
  have hopposite : signedUnits (!x.isNegative) x.magnitudeBits ≤ unitsOfInt (-i) := by
    rw [signedUnits_not, unitsOfInt_neg]
    exact Int.neg_le_neg h
  have hrounded := signedUnits_le_ofInt ((isFinite_neg_ofInt i).trans hi) _ _ hopposite
  rw [signedUnits_not, units_neg_ofInt] at hrounded
  exact Int.neg_le_neg_iff.mp hrounded

/-- No double is nearer to an integer than the one it is rounded to, in units. -/
theorem units_ofInt_closest (hi : (ofInt i).isFinite = true) (x : Binary64) :
    ((ofInt i).units - unitsOfInt i).natAbs ≤ (x.units - unitsOfInt i).natAbs := by
  have hclosest := (nearest_ofInt hi).closest x.magnitudeBits
  -- a double on the other side of zero is farther away than zero
  have hzero := (nearest_ofInt hi).closest 0
  have hworth : unitsOfBits 0 = 0 := rfl
  have hsize := natAbs_shiftLeft i
  have hsign := unitsOfInt_neg_iff (i := i)
  rw [Nat.mul_one, Nat.mul_one] at hclosest hzero
  rw [units_ofInt, units_eq_signedUnits x]
  unfold magnitude signedUnits
  by_cases hneg : i < 0
  · rw [if_pos hneg] at hsize ⊢
    split <;> omega
  · rw [if_neg hneg] at hsize ⊢
    split <;> omega

/-- The distance of a double from an integer, counted in units. -/
theorem abs_value_sub (x : Binary64) (i : Int) :
    |x.value - i| = ((x.units - unitsOfInt i).natAbs : ℚ) / 2 ^ unitShift := by
  have hsub : x.value - i = ((x.units - unitsOfInt i : Int) : ℚ) / 2 ^ unitShift := by
    rw [Int.cast_sub, unitsOfInt_cast, sub_div, mul_div_cancel_right₀ _ two_pow_unitShift_pos.ne']
    rfl
  rw [hsub, abs_div, abs_of_pos two_pow_unitShift_pos, Nat.cast_natAbs, Int.cast_abs]

/-- No double is nearer to an integer than the one it is rounded to. -/
theorem ofInt_closest (hi : (ofInt i).isFinite = true) (x : Binary64) :
    |(ofInt i).value - i| ≤ |x.value - i| := by
  rw [abs_value_sub, abs_value_sub, div_le_div_iff_of_pos_right two_pow_unitShift_pos,
    Nat.cast_le]
  exact units_ofInt_closest hi x

/-- Rounding keeps integers in order. -/
theorem units_ofInt_mono (hi : (ofInt i).isFinite = true) (hj : (ofInt j).isFinite = true)
    (h : i ≤ j) : (ofInt i).units ≤ (ofInt j).units := by
  have hup := units_le_ofInt (x := ofInt i) hj
  have hdown := ofInt_le_units (x := ofInt j) hi
  -- otherwise either would be nearer to the double of the other
  have hclosest := units_ofInt_closest hi (ofInt j)
  have hclosest' := units_ofInt_closest hj (ofInt i)
  rcases Int.lt_or_eq_of_le h with hlt | rfl
  · have hstrict := unitsOfInt_lt_iff.mpr hlt
    omega
  · exact Int.le_refl _

-- ========================================================== exact integers

/-- A number of 53 bits times a power of two is so many units of some double. -/
theorem exists_unitsOfBits_eq {a : Nat} (ha : a ≤ 2 * exponentBit) (e : Nat) :
    ∃ m, unitsOfBits m = a * 2 ^ e := by
  induction e generalizing a with
  | zero =>
      have hunits := unitsOfBits_steps (s := 0) (Or.inl rfl) ha
      exact ⟨_, hunits⟩
  | succ e ih =>
      rcases Nat.lt_or_ge a exponentBit with hsmall | hnormal
      · obtain ⟨m, hm⟩ := ih (a := 2 * a) (by omega)
        exact ⟨m, by rw [hm, Nat.pow_succ', Nat.mul_left_comm, Nat.mul_assoc]⟩
      · exact ⟨_, unitsOfBits_steps (Or.inr hnormal) ha⟩

/-- Up to two to the power of 53, an integer is worth the same as a double. -/
theorem value_ofInt_of_natAbs_le (h : i.natAbs ≤ 2 ^ 53) : (ofInt i).value = i := by
  have hfinite : (ofInt i).isFinite = true := by
    rw [isFinite_ofInt_iff]
    exact Nat.lt_of_le_of_lt h (by decide +kernel)
  have hnearest := nearest_ofInt hfinite
  obtain ⟨m, hm⟩ := exists_unitsOfBits_eq (a := i.natAbs) h unitShift
  rw [← Nat.shiftLeft_eq] at hm
  have hbits : (ofInt i).magnitudeBits = m :=
    Nat.le_antisymm (hnearest.le_of_ge Nat.one_pos (by omega))
      (hnearest.le_of_le Nat.one_pos (by omega))
  have hsize := natAbs_shiftLeft i
  rw [value_eq_intCast_iff, units_ofInt]
  unfold magnitude
  rw [hbits, hm, hsize]
  by_cases hneg : i < 0
  · rw [if_pos hneg, if_pos hneg, Int.neg_neg]
  · rw [if_neg hneg, if_neg hneg]

end EventScript.Decimal.Binary64
