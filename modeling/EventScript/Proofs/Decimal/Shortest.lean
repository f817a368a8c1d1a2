/-
The shortest digits of a double read back as that double. The digits are looked for on grids of
powers of ten, and a grid point is taken only when it lies in the interval that reads as the
double; so all there is to show is that the search ends, that the digits are as many as they
are counted, and that reading takes none of its shortcuts.

The search ends because the interval is wider than a step of the grid of seventeen digits: the
two neighbours of a double are apart by more than its worth over half of `10 ^ 16`.
-/
import Mathlib.Algebra.Order.Field.Power
import Mathlib.Tactic.Linarith
import Mathlib.Tactic.Positivity
import Mathlib.Tactic.Ring
import EventScript.Proofs.Decimal.Nearest

namespace EventScript.Decimal

open Binary64 (unitShift unitsOfBits unitsOfBits_strictMono exponentBit infinityBits Nearest)

variable {m c units n num den : Nat} {k : Int} {q : ℚ}

-- ============================================================= the worth

/-- A decimal `c * 10 ^ k` in units. -/
def decimalUnits (c : Nat) (k : Int) : ℚ := c * 10 ^ k * 2 ^ unitShift

/-- Zeros behind the digits can be counted in the exponent. -/
theorem decimalUnits_mul_pow (c j : Nat) (k : Int) :
    decimalUnits (c * 10 ^ j) k = decimalUnits c (k + j) := by
  unfold decimalUnits
  rw [zpow_add₀ (by decide), zpow_natCast, Nat.cast_mul, Nat.cast_pow, Nat.cast_ofNat]
  ring

/-- So many steps are so many times one step. -/
theorem decimalUnits_eq_mul (c : Nat) (k : Int) : decimalUnits c k = c * decimalUnits 1 k := by
  unfold decimalUnits
  rw [Nat.cast_one, one_mul, mul_assoc]

theorem decimalUnits_le_decimalUnits {c' : Nat} :
    decimalUnits c k ≤ decimalUnits c' k ↔ c ≤ c' := by
  unfold decimalUnits
  rw [mul_le_mul_iff_left₀ (by positivity), mul_le_mul_iff_left₀ (by positivity), Nat.cast_le]

theorem decimalUnits_lt_decimalUnits {c' : Nat} :
    decimalUnits c k < decimalUnits c' k ↔ c < c' := by
  unfold decimalUnits
  rw [mul_lt_mul_iff_left₀ (by positivity), mul_lt_mul_iff_left₀ (by positivity), Nat.cast_lt]

/-- On the grid with `n` digits, so many steps reach the point. -/
theorem decimalUnits_point (p : Int) : decimalUnits (10 ^ n) (p - n) = decimalUnits 1 p := by
  rw [← one_mul (10 ^ n), decimalUnits_mul_pow, sub_add_cancel]

/-- A coarser grid has the longer step. -/
theorem decimalUnits_one_mono {k' : Int} (h : k ≤ k') : decimalUnits 1 k ≤ decimalUnits 1 k' := by
  unfold decimalUnits
  gcongr
  decide

/-- Steps of at least one are whole numbers of units. -/
theorem decimalUnits_natCast (c j : Nat) :
    decimalUnits c j = ((c * 10 ^ j) <<< unitShift : Nat) := by
  unfold decimalUnits
  rw [Nat.shiftLeft_eq, zpow_natCast]
  push_cast
  rfl

/-- Steps below one are whole numbers of units over a power of ten. -/
theorem decimalUnits_neg_natCast (c j : Nat) :
    decimalUnits c (-j) = (c <<< unitShift : Nat) / (10 ^ j : Nat) := by
  unfold decimalUnits
  rw [Nat.shiftLeft_eq, zpow_neg, zpow_natCast, div_eq_mul_inv]
  push_cast
  ring

/-- A number has as many digits as the power of ten it is below and not below the one before. -/
theorem pow_length_digits (hpos : 0 < n) :
    10 ^ ((Nat.toDigits 10 n).length - 1) ≤ n ∧ n < 10 ^ (Nat.toDigits 10 n).length := by
  have hsome : 0 < (Nat.toDigits 10 n).length := Nat.length_toDigits_pos
  refine ⟨?_, (Nat.length_toDigits_le_iff (by decide) hsome).mp le_rfl⟩
  by_cases hone : (Nat.toDigits 10 n).length = 1
  · rw [hone]
    exact hpos
  · have hfewer := Nat.length_toDigits_le_iff (b := 10) (n := n) (by decide)
      (show 0 < (Nat.toDigits 10 n).length - 1 by omega)
    omega

/-- So a decimal lies between two powers of ten that its digits tell. -/
theorem decimalUnits_bounds (hc : 0 < c) :
    decimalUnits 1 (k + (Nat.toDigits 10 c).length - 1) ≤ decimalUnits c k
      ∧ decimalUnits c k < decimalUnits 1 (k + (Nat.toDigits 10 c).length) := by
  obtain ⟨hlow, hhigh⟩ := pow_length_digits hc
  have hsome : 0 < (Nat.toDigits 10 c).length := Nat.length_toDigits_pos
  generalize (Nat.toDigits 10 c).length = places at *
  constructor
  · have hplaces : k + places - 1 - (places - 1 : Nat) = k := by omega
    rw [← decimalUnits_point (n := places - 1), hplaces, decimalUnits_le_decimalUnits]
    exact hlow
  · rw [← decimalUnits_point (n := places), add_sub_cancel_right, decimalUnits_lt_decimalUnits]
    exact hhigh

-- ========================================================== the interval

/-- The bits are those of the double nearest to a rational number of units. -/
structure NearestTo (m : Nat) (q : ℚ) : Prop where
  low : (unitsOfBits (m - 1) : ℚ) + unitsOfBits m ≤ 2 * q
  high : 2 * q ≤ (unitsOfBits m : ℚ) + unitsOfBits (m + 1)
  even : m % 2 = 1 → (unitsOfBits (m - 1) : ℚ) + unitsOfBits m ≠ 2 * q
    ∧ 2 * q ≠ (unitsOfBits m : ℚ) + unitsOfBits (m + 1)

/-- For a fraction it is the nearest in natural numbers. -/
theorem nearestTo_div_iff (hden : 0 < den) : NearestTo m (num / den) ↔ Nearest m num den := by
  have hpos : (0 : ℚ) < den := Nat.cast_pos.mpr hden
  have htwo : (2 : ℚ) * (num / den) = (2 * num : Nat) / den := by
    push_cast
    ring
  have hle : ∀ a b : Nat, (a : ℚ) + b ≤ 2 * (num / den) ↔ (a + b) * den ≤ 2 * num := by
    intro a b
    rw [htwo, le_div_iff₀ hpos, ← Nat.cast_add, ← Nat.cast_mul, Nat.cast_le]
  have hge : ∀ a b : Nat, 2 * (num / den) ≤ (a : ℚ) + b ↔ 2 * num ≤ (a + b) * den := by
    intro a b
    rw [htwo, div_le_iff₀ hpos, ← Nat.cast_add, ← Nat.cast_mul, Nat.cast_le]
  have hne : ∀ a b : Nat, (a : ℚ) + b = 2 * (num / den) ↔ (a + b) * den = 2 * num := by
    intro a b
    rw [htwo, eq_div_iff hpos.ne', ← Nat.cast_add, ← Nat.cast_mul, Nat.cast_inj]
  constructor
  · intro h
    exact ⟨(hle _ _).mp h.low, (hge _ _).mp h.high, fun hodd =>
      ⟨mt (hne _ _).mpr (h.even hodd).1, fun heq => (h.even hodd).2 ((hne _ _).mpr heq.symm).symm⟩⟩
  · intro h
    exact ⟨(hle _ _).mpr h.low, (hge _ _).mpr h.high, fun hodd =>
      ⟨mt (hne _ _).mp (h.even hodd).1, fun heq => (h.even hodd).2 ((hne _ _).mp heq.symm).symm⟩⟩

/-- Strictly between the halfway points every number reads as the double. -/
theorem nearestTo_of_lt (hlow : (unitsOfBits (m - 1) : ℚ) + unitsOfBits m < 2 * q)
    (hhigh : 2 * q < (unitsOfBits m : ℚ) + unitsOfBits (m + 1)) : NearestTo m q :=
  ⟨hlow.le, hhigh.le, fun _ => ⟨hlow.ne, hhigh.ne⟩⟩

namespace Shortest

/-- A grid point is its worth, doubled, as a fraction. -/
theorem gridPoint_eq (c : Nat) (k : Int) :
    ∃ num den : Nat, gridPoint c k = (2 * num, den) ∧ 0 < den
      ∧ decimalUnits c k = (num : ℚ) / den := by
  unfold gridPoint
  split
  case isTrue hk =>
    lift k to Nat using hk with j
    refine ⟨(c * 10 ^ j) <<< unitShift, 1, ?_, Nat.one_pos, ?_⟩
    · rw [Nat.shiftLeft_eq, Nat.shiftLeft_eq, Nat.mul_assoc 2, Nat.mul_assoc 2]
      rfl
    · rw [decimalUnits_natCast, Nat.cast_one, div_one]
  case isFalse hk =>
    obtain ⟨j, rfl⟩ := Int.exists_eq_neg_ofNat (Int.le_of_lt (Int.not_le.mp hk))
    refine ⟨c <<< unitShift, 10 ^ j, ?_, Nat.pow_pos (by decide), decimalUnits_neg_natCast c j⟩
    rw [Nat.shiftLeft_eq, Nat.shiftLeft_eq, Nat.mul_assoc 2, Int.neg_neg]
    rfl

/-- A grid point is in the interval when its decimal reads as the double. -/
theorem has_gridPoint_iff :
    (Interval.ofBits m).has (gridPoint c k) = true ↔ NearestTo m (decimalUnits c k) := by
  obtain ⟨num, den, hpoint, hden, hunits⟩ := gridPoint_eq c k
  rw [hpoint, hunits, nearestTo_div_iff hden, Binary64.nearest_iff_has]

-- ============================================================== the grid

/-- The digits with which the search starts on a grid: those of the number, cut off. -/
def floorOn (units : Nat) (k : Int) : Nat :=
  if 0 ≤ k then units / (Nat.pow 10 k.toNat <<< unitShift)
  else (units * Nat.pow 10 (-k).toNat) >>> unitShift

/-- A number of units is between its floor on a grid and the next point. -/
theorem floorOn_spec (units : Nat) (k : Int) :
    decimalUnits (floorOn units k) k ≤ units ∧ units < decimalUnits (floorOn units k + 1) k := by
  unfold floorOn
  split
  case isTrue hk =>
    lift k to Nat using hk with j
    have hstep : 0 < 10 ^ j * 2 ^ unitShift := by positivity
    rw [decimalUnits_natCast, decimalUnits_natCast, Nat.cast_le, Nat.cast_lt]
    simp only [Nat.shiftLeft_eq, Nat.mul_assoc]
    exact ⟨Nat.div_mul_le_self _ _, (Nat.div_lt_iff_lt_mul hstep).mp (Nat.lt_succ_self _)⟩
  case isFalse hk =>
    obtain ⟨j, rfl⟩ := Int.exists_eq_neg_ofNat (Int.le_of_lt (Int.not_le.mp hk))
    have hpos : (0 : ℚ) < (10 ^ j : Nat) := by positivity
    rw [decimalUnits_neg_natCast, decimalUnits_neg_natCast, div_le_iff₀ hpos,
      lt_div_iff₀ hpos, ← Nat.cast_mul, Nat.cast_le, Nat.cast_lt, Int.neg_neg]
    simp only [Nat.shiftLeft_eq, Nat.shiftRight_eq_div_pow]
    exact ⟨Nat.div_mul_le_self _ _,
      (Nat.div_lt_iff_lt_mul (Nat.two_pow_pos _)).mp (Nat.lt_succ_self _)⟩

/-- What a grid gives is one of the two points around the number, and reads back; it gives
nothing only when neither of them does. -/
theorem onGrid?_cases (m units : Nat) (p : Int) (n : Nat) :
    (∃ c, onGrid? (.ofBits m) units p n = some c
        ∧ (c = floorOn units (p - n) ∨ c = floorOn units (p - n) + 1)
        ∧ NearestTo m (decimalUnits c (p - n)))
      ∨ onGrid? (.ofBits m) units p n = none
        ∧ ¬ NearestTo m (decimalUnits (floorOn units (p - n)) (p - n))
        ∧ ¬ NearestTo m (decimalUnits (floorOn units (p - n) + 1) (p - n)) := by
  have hfloor : (if 0 ≤ p - n then units / (Nat.pow 10 (p - n).toNat <<< unitShift)
    else (units * Nat.pow 10 (-(p - n)).toNat) >>> unitShift) = floorOn units (p - n) := rfl
  unfold onGrid?
  dsimp only
  rw [hfloor]
  simp only [← has_gridPoint_iff]
  generalize floorOn units (p - n) = c
  cases hbelow : (Interval.ofBits m).has (gridPoint c (p - n)) <;>
    cases habove : (Interval.ofBits m).has (gridPoint (c + 1) (p - n))
  · exact Or.inr ⟨rfl, nofun, nofun⟩
  · exact Or.inl ⟨c + 1, rfl, Or.inr rfl, habove⟩
  · exact Or.inl ⟨c, rfl, Or.inl rfl, hbelow⟩
  · -- both read back, whichever is taken
    refine Or.inl ?_
    dsimp only
    split
    · exact ⟨c, rfl, Or.inl rfl, hbelow⟩
    · split
      · exact ⟨c + 1, rfl, Or.inr rfl, habove⟩
      · split
        · exact ⟨c, rfl, Or.inl rfl, hbelow⟩
        · exact ⟨c + 1, rfl, Or.inr rfl, habove⟩

-- ======================================================== the point's place

/-- The digits of a number tell which power of ten it is below, also when they are counted after
a scaling that makes a unit more than one. -/
theorem decimalUnits_length_digits {j : Nat} (hscale : 2 ^ unitShift ≤ Nat.pow 10 j)
    (hpos : 0 < units) :
    let places : Int := (Nat.toDigits 10 ((units * Nat.pow 10 j) >>> unitShift)).length
    decimalUnits 1 (places - j - 1) ≤ units ∧ units < decimalUnits 1 (places - j) := by
  have hstep : (0 : ℚ) < (10 ^ j : Nat) := by positivity
  -- powers of ten over the scale
  have hpower : ∀ l : Nat,
      decimalUnits 1 (l - j) = ((10 ^ l) <<< unitShift : Nat) / (10 ^ j : Nat) := by
    intro l
    rw [← decimalUnits_neg_natCast, ← one_mul (10 ^ l), decimalUnits_mul_pow]
    congr 1
    omega
  have hone : 0 < (units * Nat.pow 10 j) >>> unitShift := by
    rw [Nat.shiftRight_eq_div_pow]
    exact Nat.div_pos (hscale.trans (Nat.le_mul_of_pos_left _ hpos)) (Nat.two_pow_pos _)
  have hdown : ∀ c, c ≤ (units * Nat.pow 10 j) >>> unitShift
      ↔ c <<< unitShift ≤ units * 10 ^ j := by
    intro c
    rw [Nat.shiftRight_eq_div_pow, Nat.le_div_iff_mul_le (Nat.two_pow_pos _), Nat.shiftLeft_eq]
    rfl
  generalize (units * Nat.pow 10 j) >>> unitShift = scaled at hone hdown
  obtain ⟨hlow, hhigh⟩ := pow_length_digits hone
  have hsome : 0 < (Nat.toDigits 10 scaled).length := Nat.length_toDigits_pos
  generalize (Nat.toDigits 10 scaled).length = places at hlow hhigh hsome
  dsimp only
  rw [show (places : Int) - j - 1 = ((places - 1 : Nat) : Int) - j by omega, hpower, hpower,
    div_le_iff₀ hstep, lt_div_iff₀ hstep, ← Nat.cast_mul, Nat.cast_le, Nat.cast_lt]
  exact ⟨(hdown _).mp hlow, Nat.lt_of_not_le (mt (hdown _).mpr (Nat.not_le_of_lt hhigh))⟩

/-- The point stands right behind the digits before it: the number is below that power of ten
and not below the one before. -/
theorem pointOf_spec (hpos : 0 < units) :
    decimalUnits 1 (pointOf units - 1) ≤ units ∧ units < decimalUnits 1 (pointOf units) := by
  have hscale : 2 ^ unitShift ≤ Nat.pow 10 400 := by decide +kernel
  have hcast : (400 : Int) = (400 : Nat) := rfl
  unfold pointOf
  rw [hcast]
  generalize 400 = j at hscale
  exact decimalUnits_length_digits hscale hpos

variable {p : Int}

/-- So the digits it is cut off to are as many as the grid has. -/
theorem floorOn_bounds (hpos : 0 < units) (hn : 0 < n) :
    10 ^ (n - 1) ≤ floorOn units (pointOf units - n)
      ∧ floorOn units (pointOf units - n) < 10 ^ n := by
  obtain ⟨hlow, hhigh⟩ := pointOf_spec hpos
  obtain ⟨hdown, hup⟩ := floorOn_spec units (pointOf units - n)
  have hbelow := decimalUnits_point (n := n - 1) (pointOf units - 1)
  rw [show pointOf units - 1 - (n - 1 : Nat) = pointOf units - n by omega] at hbelow
  have hfirst := hbelow.trans_le hlow |>.trans_lt hup
  have hlast := hdown.trans_lt (hhigh.trans_eq (decimalUnits_point (n := n) _).symm)
  rw [decimalUnits_lt_decimalUnits] at hfirst hlast
  exact ⟨Nat.le_of_lt_succ hfirst, hlast⟩

-- ===================================================== seventeen digits

/-- The neighbours of a double are apart by more than its worth over half of `10 ^ 16`. -/
theorem neighbours_apart (hm : 0 < m) :
    2 * unitsOfBits m + 10 ^ 16 * unitsOfBits (m - 1) < 10 ^ 16 * unitsOfBits (m + 1) := by
  obtain ⟨s, q, rfl, hlow, hhigh⟩ := Binary64.exists_steps m
  have hbit : exponentBit = 0x10000000000000 := rfl
  have hworth := Binary64.unitsOfBits_steps hlow hhigh.le
  have hnext := Binary64.le_unitsOfBits_succ hlow hhigh.le
  have hprev := unitsOfBits_strictMono.monotone (Nat.sub_le (s * exponentBit + q) 1)
  have hfraction := Nat.mul_lt_mul_of_pos_right hhigh (Nat.two_pow_pos s)
  have hinner : (s = 0 ∨ exponentBit < q) →
      unitsOfBits (s * exponentBit + q - 1) + 2 ^ s = q * 2 ^ s := by
    intro h
    have hq : 0 < q := by
      rcases h with rfl | h
      · rwa [Nat.zero_mul, Nat.zero_add] at hm
      · exact Nat.zero_lt_of_lt h
    rw [Binary64.unitsOfBits_pred hq h hhigh.le, ← Nat.succ_mul, Nat.succ_eq_add_one,
      Nat.sub_add_cancel hq]
  rw [Nat.succ_mul] at hnext
  rw [hworth] at hprev ⊢
  generalize unitsOfBits (s * exponentBit + q - 1) = before at *
  generalize unitsOfBits (s * exponentBit + q + 1) = next at *
  rw [hbit] at hfraction hlow
  by_cases h : s = 0 ∨ exponentBit < q
  · have hback := hinner h
    omega
  · -- an exponent begins: the neighbour below counts for nothing, as the fraction is small
    have hfirst : q * 2 ^ s = 0x10000000000000 * 2 ^ s := by
      rw [show q = 0x10000000000000 by omega]
    omega

/-- One of the two points around a double on the grid of seventeen digits reads back. -/
theorem isSome_onGrid?_seventeen (hm : 0 < m) :
    (onGrid? (.ofBits m) (unitsOfBits m) (pointOf (unitsOfBits m)) 17).isSome = true := by
  obtain ⟨hfirst, -⟩ := pointOf_spec (unitsOfBits_strictMono hm)
  obtain ⟨hdown, hup⟩ := floorOn_spec (unitsOfBits m) (pointOf (unitsOfBits m) - (17 : Nat))
  rcases onGrid?_cases m (unitsOfBits m) (pointOf (unitsOfBits m)) 17 with
    ⟨c, hc, -⟩ | ⟨-, hbelow, habove⟩
  · rw [hc]
    rfl
  exfalso
  have hstep : decimalUnits 1 (pointOf (unitsOfBits m) - 1)
      = 10 ^ 16 * decimalUnits 1 (pointOf (unitsOfBits m) - (17 : Nat)) := by
    have hplaces := decimalUnits_point (n := 16) (pointOf (unitsOfBits m) - 1)
    rw [Int.sub_sub, decimalUnits_eq_mul] at hplaces
    exact_mod_cast hplaces.symm
  have hprev : (unitsOfBits (m - 1) : ℚ) < unitsOfBits m :=
    Nat.cast_lt.mpr (unitsOfBits_strictMono (Nat.sub_lt hm Nat.one_pos))
  have hnext : (unitsOfBits m : ℚ) < unitsOfBits (m + 1) :=
    Nat.cast_lt.mpr (Binary64.unitsOfBits_lt_succ m)
  have hapart : (2 : ℚ) * unitsOfBits m + 10 ^ 16 * unitsOfBits (m - 1)
      < 10 ^ 16 * unitsOfBits (m + 1) := by
    exact_mod_cast neighbours_apart hm
  generalize pointOf (unitsOfBits m) - (17 : Nat) = k at *
  generalize floorOn (unitsOfBits m) k = c at *
  rw [decimalUnits_eq_mul (c + 1), Nat.cast_succ] at hup habove
  rw [decimalUnits_eq_mul c] at hdown hbelow
  -- neither point is in the interval, so it lies between them, and a step is too short for it
  have hunder : 2 * (c * decimalUnits 1 k) ≤ (unitsOfBits (m - 1) : ℚ) + unitsOfBits m := by
    by_contra h
    exact hbelow (nearestTo_of_lt (not_le.mp h) (by linarith))
  have hover : (unitsOfBits m : ℚ) + unitsOfBits (m + 1) ≤ 2 * ((c + 1) * decimalUnits 1 k) := by
    by_contra h
    exact habove (nearestTo_of_lt (by linarith) (not_le.mp h))
  linarith

/-- What the search finds is on a grid that is not before its start. -/
theorem search_spec (tries : Nat) {c n n' : Nat}
    (h : search (.ofBits m) units p tries n' = some (c, n)) :
    n' ≤ n ∧ onGrid? (.ofBits m) units p n = some c := by
  induction tries generalizing n' with
  | zero => cases h
  | succ tries ih =>
      unfold search at h
      split at h
      · next hgrid =>
        cases h
        exact ⟨le_rfl, hgrid⟩
      · obtain ⟨hle, hgrid⟩ := ih h
        exact ⟨Nat.le_of_succ_le hle, hgrid⟩

/-- The search ends at a grid within its tries that gives digits, if not before. -/
theorem isSome_search {i : Interval} {tries n n' : Nat} (hn : n' ≤ n) (htries : n < n' + tries)
    (h : (onGrid? i units p n).isSome = true) :
    (search i units p tries n').isSome = true := by
  induction tries generalizing n' with
  | zero => omega
  | succ tries ih =>
      unfold search
      split
      · rfl
      · next hgrid =>
        refine ih ?_ (by omega)
        by_contra hlt
        obtain rfl : n = n' := by omega
        rw [hgrid] at h
        cases h

end Shortest

/-- Digits are as many as counted, without a zero in front, and the decimal they write reads as
the double with these bits. -/
structure Digits.ReadBack (d : Digits) (m : Nat) : Prop where
  some_count : 0 < d.count
  low : 10 ^ (d.count - 1) ≤ d.value
  high : d.value < 10 ^ d.count
  nearest : NearestTo m (decimalUnits d.value (d.point - d.count))

open Shortest in
/-- The shortest digits of a double read back as this double. -/
theorem shortest_readBack {x : Binary64} (hx : 0 < x.magnitudeBits) :
    (shortest x).ReadBack x.magnitudeBits := by
  have hpos : 0 < x.magnitude := unitsOfBits_strictMono hx
  have hfound : (search (.ofBits x.magnitudeBits) x.magnitude (pointOf x.magnitude) 17 1).isSome
      = true :=
    isSome_search (by decide) (by decide) (isSome_onGrid?_seventeen hx)
  unfold shortest
  dsimp only
  split
  · next hnone =>
    rw [hnone] at hfound
    cases hfound
  · next c n hsearch =>
    obtain ⟨hn, hgrid⟩ := search_spec 17 hsearch
    obtain ⟨hlow, hhigh⟩ := floorOn_bounds hpos hn
    rcases onGrid?_cases x.magnitudeBits x.magnitude (pointOf x.magnitude) n with
      ⟨c', hc', haround, hnear⟩ | ⟨hnone, -⟩
    · obtain rfl : c' = c := Option.some.inj (hc'.symm.trans hgrid)
      split
      case isTrue hten =>
        -- rounded up to the next power of ten
        refine ⟨Nat.one_pos, le_rfl, Nat.one_lt_pow one_ne_zero (by decide), ?_⟩
        rw [hten, Nat.pow_eq, decimalUnits_point] at hnear
        simpa only [Nat.cast_one, add_sub_cancel_right] using hnear
      case isFalse hten =>
        rw [Nat.pow_eq] at hten
        exact ⟨hn, by dsimp only; omega, by dsimp only; omega, hnear⟩
    · rw [hgrid] at hnone
      cases hnone

-- ============================================================ the reading

/-- A decimal that reads as a finite double is below the numbers that are sure to overflow. -/
theorem lt_of_nearestTo (hfinite : m < infinityBits) (h : NearestTo m (decimalUnits c k)) :
    decimalUnits c k < decimalUnits 1 310 := by
  have hbits : unitsOfBits infinityBits < (1 * 10 ^ 310) <<< unitShift := by decide +kernel
  have hm : (unitsOfBits m : ℚ) ≤ unitsOfBits infinityBits :=
    Nat.cast_le.mpr (unitsOfBits_strictMono.monotone hfinite.le)
  have hnext : (unitsOfBits (m + 1) : ℚ) ≤ unitsOfBits infinityBits :=
    Nat.cast_le.mpr (unitsOfBits_strictMono.monotone hfinite)
  have hpast : (unitsOfBits infinityBits : ℚ) < decimalUnits 1 310 := by
    have hunits := decimalUnits_natCast 1 310
    rw [Nat.cast_ofNat] at hunits
    rw [hunits, Nat.cast_lt]
    exact hbits
  have hhigh := h.high
  linarith

/-- And, unless it reads as zero, above those that are sure to vanish. -/
theorem gt_of_nearestTo (hm : 0 < m) (h : NearestTo m (decimalUnits c k)) :
    decimalUnits 1 (-331) < decimalUnits c k := by
  have hsmall : 2 * (1 <<< unitShift) < 10 ^ 331 := by decide +kernel
  have hone : (1 : ℚ) ≤ unitsOfBits m :=
    Nat.one_le_cast.mpr (Nat.lt_of_le_of_lt (Nat.zero_le _) (unitsOfBits_strictMono hm))
  have hzero : (0 : ℚ) ≤ unitsOfBits (m - 1) := Nat.cast_nonneg _
  have hvanish : 2 * decimalUnits 1 (-331) < 1 := by
    have hunits := decimalUnits_neg_natCast 1 331
    rw [Nat.cast_ofNat] at hunits
    rw [hunits, mul_div_assoc', div_lt_one (by positivity)]
    exact_mod_cast hsmall
  have hlow := h.low
  linarith

/-- A positive decimal that reads as a finite double is read as it, whatever its size: the
numbers that are not expanded are none of these. -/
theorem ofDecimal_of_nearestTo {negative : Bool} (hm : 0 < m) (hfinite : m < infinityBits)
    (h : NearestTo m (decimalUnits c k)) :
    Binary64.ofDecimal negative c k = Binary64.ofMagnitudeBits negative m := by
  have hbelow := lt_of_nearestTo hfinite h
  have habove := gt_of_nearestTo hm h
  have hzero : (0 : ℚ) < decimalUnits 1 (-331) := by
    unfold decimalUnits
    positivity
  have hc : 0 < c := by
    refine Nat.pos_of_ne_zero ?_
    rintro rfl
    rw [decimalUnits_eq_mul 0 k, Nat.cast_zero, zero_mul] at habove
    exact habove.not_gt hzero
  obtain ⟨hlow, hhigh⟩ := decimalUnits_bounds (k := k) hc
  unfold Binary64.ofDecimal
  rw [if_neg hc.ne']
  dsimp only
  generalize (Nat.toDigits 10 c).length = places at hlow hhigh ⊢
  -- the decimal is in range, so neither shortcut is taken
  rw [if_neg, if_neg]
  · split
    case isTrue hk =>
      lift k to Nat using hk with j
      refine Binary64.ofRatio_of_nearest ?_ Nat.one_pos hfinite
      rwa [← nearestTo_div_iff Nat.one_pos, Nat.cast_one, div_one, Nat.pow_eq, Int.toNat_natCast,
        ← decimalUnits_natCast]
    case isFalse hk =>
      obtain ⟨j, rfl⟩ := Int.exists_eq_neg_ofNat (Int.le_of_lt (Int.not_le.mp hk))
      have hpos : 0 < 10 ^ j := Nat.pow_pos (by decide)
      rw [Int.neg_neg, Int.toNat_natCast, Nat.pow_eq]
      refine Binary64.ofRatio_of_nearest ?_ hpos hfinite
      rwa [← nearestTo_div_iff hpos, ← decimalUnits_neg_natCast]
  -- so small a decimal would be nearest to zero, and `m` is above it
  · intro hvanishes
    have hpower := decimalUnits_one_mono (show k + places ≤ -331 by omega)
    linarith
  · intro hoverflows
    have hpower := decimalUnits_one_mono (show 310 ≤ k + places - 1 by omega)
    linarith

end EventScript.Decimal
