/-
Comparing an integer with a double. The integer is made a double for it, so the two compare by
value as far as rounding leaves the integer where it is with respect to the other. It always
does, but for one double: the nearest one, which counts as equal whether it is or not. Integers
up to two to the power of 53 are not rounded at all.

Since rounding keeps the order, "less" is transitive over all numbers. "Equal" is not: two
integers may be rounded to the same double and equal it both.
-/
import EventScript.Proofs.Comparison.Coherence
import EventScript.Proofs.Numeric.Spelling

namespace EventScript.Comparison

open Decimal (Binary64)

variable {v : Json} {i : Int} {y : Binary64}

-- ========================================================== the statement

/-- What the sign says of two rationals. -/
def Operator.relates : Operator → ℚ → ℚ → Prop
  | greater, a, b => b < a
  | greaterEqual, a, b => b ≤ a
  | lessEqual, a, b => a ≤ b
  | less, a, b => a < b
  | equal, a, b => a = b
  | notEqual, a, b => a ≠ b

/-- The double stands for the integer though it is not worth the same. -/
def Blurs (y : Binary64) (i : Int) : Prop :=
  (Binary64.ofInt i).value = y.value ∧ y.value ≠ i

/-- An order told rightly is all that the six signs need. -/
theorem Operator.holdsOf_iff_relates (op : Operator) {order : Ordering} {a b : ℚ}
    (hlt : order = .lt ↔ a < b) (hgt : order = .gt ↔ b < a) :
    op.holdsOf order = true ↔ op.relates a b := by
  rcases lt_trichotomy a b with h | rfl | h
  · rw [hlt.mpr h]
    cases op <;> simp [holdsOf, relates, h, h.le, h.ne, h.not_ge, h.not_gt]
  · have heq : order = .eq := by
      cases order with
      | lt => exact absurd (hlt.mp rfl) (lt_irrefl a)
      | eq => rfl
      | gt => exact absurd (hgt.mp rfl) (lt_irrefl a)
    rw [heq]
    cases op <;> simp [holdsOf, relates]
  · rw [hgt.mpr h]
    cases op <;> simp [holdsOf, relates, h, h.le, h.ne', h.not_ge, h.not_gt]

/-- The mirrored operator relates two numbers the other way round. -/
theorem Operator.mirrored_relates (op : Operator) (a b : ℚ) :
    op.mirrored.relates b a ↔ op.relates a b := by
  cases op with
  | equal => exact eq_comm
  | notEqual => exact ne_comm
  | _ => exact Iff.rfl

-- ============================================================== the order

/-- A value that holds an integer compares with a double as the nearest double does. -/
theorem order?_double (hv : v.HoldsInt i) (hi : FitsExact i) (hy : y.isFinite = true) :
    order? v (.number (.float y hy)) = some (compare (Binary64.ofInt i).units y.units) := by
  have hamount : Numeric.ofJson? v = some (.int i hi) := Numeric.ofJson?_eq_int_iff.mpr hv
  have horder : amountOrder? v (.number (.float y hy))
      = some (compare (Binary64.ofInt i).units y.units) := by
    unfold amountOrder?
    rw [hamount]
    exact Binary64.compare?_of_isFinite (Numeric.isFinite_ofInt_of_fits hi) hy
  cases hv with
  | number => exact horder
  | text => exact horder

/-- Unless the double stands for the integer, the order of the two is the exact one. -/
theorem compare_units_iff (hi : FitsExact i) (hy : ¬ Blurs y i) :
    (compare (Binary64.ofInt i).units y.units = .lt ↔ (i : ℚ) < y.value)
      ∧ (compare (Binary64.ofInt i).units y.units = .gt ↔ y.value < (i : ℚ)) := by
  have hfinite := Numeric.isFinite_ofInt_of_fits hi
  have hexact : (Binary64.ofInt i).units = y.units → y.units = Binary64.unitsOfInt i := by
    intro h
    rw [← Binary64.value_eq_intCast_iff]
    by_contra hne
    exact hy ⟨Binary64.value_eq_value_iff.mpr h, hne⟩
  have hle := Binary64.units_le_ofInt (x := y) hfinite
  have hge := Binary64.ofInt_le_units (x := y) hfinite
  rw [Int.compare_eq_lt, Int.compare_eq_gt, Binary64.intCast_lt_value_iff,
    Binary64.value_lt_intCast_iff]
  omega

/-- A double that stands for an integer equals it in every comparison. -/
theorem Blurs.compare_units (h : Blurs y i) :
    compare (Binary64.ofInt i).units y.units = .eq := by
  rw [Binary64.value_eq_value_iff.mp h.1]
  exact Std.ReflOrd.compare_self

/-- Only an integer past two to the power of 53 is stood for, and by no other double than the
nearest. -/
theorem Blurs.far (h : Blurs y i) (hi : FitsExact i) :
    2 ^ 53 < |i| ∧ ∀ x : Binary64, |y.value - i| ≤ |x.value - i| := by
  constructor
  · by_contra hsmall
    rw [Int.not_lt, Int.abs_eq_natAbs] at hsmall
    exact h.2 (h.1 ▸ Binary64.value_ofInt_of_natAbs_le (by exact_mod_cast hsmall))
  · intro x
    rw [← h.1]
    exact Binary64.ofInt_closest (Numeric.isFinite_ofInt_of_fits hi) x

-- ======================================================== over all numbers

/-- One number is less than another: as integers where both are, else as doubles. -/
def Precedes : Json.Number → Json.Number → Prop
  | .int i _, .int j _ => i < j
  | l, m => l.toBinary64.units < m.toBinary64.units

/-- Two numbers are equal in the same sense. -/
def Coincides : Json.Number → Json.Number → Prop
  | .int i _, .int j _ => i = j
  | l, m => l.toBinary64.units = m.toBinary64.units

theorem isFinite_toBinary64 (n : Json.Number) : n.toBinary64.isFinite = true := by
  cases n with
  | int i h => exact Numeric.isFinite_ofInt_of_fits (Numeric.fitsExact_of_fitsWord h)
  | float x h => exact h

/-- Two numbers have the order of which these are the first two cases. -/
theorem order?_numbers (l m : Json.Number) : ∃ order, order? (.number l) (.number m) = some order
    ∧ (order = .lt ↔ Precedes l m) ∧ (order = .eq ↔ Coincides l m) := by
  have hdoubles := Binary64.compare?_of_isFinite (isFinite_toBinary64 l) (isFinite_toBinary64 m)
  cases l with
  | int i hi =>
      cases m with
      | int j hj => exact ⟨compare i j, rfl, Int.compare_eq_lt, Int.compare_eq_eq⟩
      | float y hy => exact ⟨_, hdoubles, Int.compare_eq_lt, Int.compare_eq_eq⟩
  | float x hx => cases m <;> exact ⟨_, hdoubles, Int.compare_eq_lt, Int.compare_eq_eq⟩

theorem less_numbers_iff (l m : Json.Number) :
    holds (some (.number l)) .less (.number m) = true ↔ Precedes l m := by
  obtain ⟨order, horder, hlt, -⟩ := order?_numbers l m
  rw [holds_of_order? horder, ← hlt]
  cases order <;> simp [Operator.holdsOf]

theorem equal_numbers_iff (l m : Json.Number) :
    holds (some (.number l)) .equal (.number m) = true ↔ Coincides l m := by
  obtain ⟨order, horder, -, heq⟩ := order?_numbers l m
  rw [holds_of_order? horder, ← heq]
  cases order <;> simp [Operator.holdsOf]

/-- Rounding both sides does not turn them round. -/
theorem units_mono_of_fitsWord {i j : Int} (hi : Json.FitsWord i) (hj : Json.FitsWord j)
    (h : i ≤ j) : (Binary64.ofInt i).units ≤ (Binary64.ofInt j).units :=
  Binary64.units_ofInt_mono
    (Numeric.isFinite_ofInt_of_fits (Numeric.fitsExact_of_fitsWord hi))
    (Numeric.isFinite_ofInt_of_fits (Numeric.fitsExact_of_fitsWord hj)) h

/-- What comes before another number is worth no more as a double. -/
theorem Precedes.units_le {l m : Json.Number} (h : Precedes l m) :
    l.toBinary64.units ≤ m.toBinary64.units := by
  cases l with
  | int i hi =>
      cases m with
      | int j hj => exact units_mono_of_fitsWord hi hj (Int.le_of_lt h)
      | float y hy => exact Int.le_of_lt h
  | float x hx => exact Int.le_of_lt h

/-- Coming before is passed on, also through numbers that the doubles cannot tell apart. -/
theorem Precedes.trans {l m n : Json.Number} (h : Precedes l m) (h' : Precedes m n) :
    Precedes l n := by
  have hle := h.units_le
  have hle' := h'.units_le
  cases m with
  | float y hy =>
      -- a double in the middle is strictly between the two rounded sides
      have hstrict : l.toBinary64.units < y.units := by cases l <;> exact h
      have hstrict' : y.units < n.toBinary64.units := h'
      have hunits := Int.lt_trans hstrict hstrict'
      cases l with
      | float x hx => exact hunits
      | int i hi => cases n with
        | float z hz => exact hunits
        | int k hk =>
            refine Int.not_le.mp fun hki => ?_
            exact absurd hunits (Int.not_lt.mpr (units_mono_of_fitsWord hk hi hki))
  | int j hj =>
      cases l with
      | float x hx => exact Int.lt_of_lt_of_le (show x.units < _ from h) hle'
      | int i hi => cases n with
        | float z hz => exact Int.lt_of_le_of_lt hle (show _ < z.units from h')
        | int k hk => exact Int.lt_trans h h'

/-- Numbers that coincide are worth the same as doubles. -/
theorem Coincides.units_eq {l m : Json.Number} (h : Coincides l m) :
    l.toBinary64.units = m.toBinary64.units := by
  cases l with
  | int i hi =>
      cases m with
      | int j hj => exact congrArg (fun i => (Binary64.ofInt i).units) h
      | float y hy => exact h
  | float x hx => exact h

/-- A double that two different integers equal stands for one of them. -/
theorem blurs_of_units_eq {k : Int} (hi : (Binary64.ofInt i).units = y.units)
    (hk : (Binary64.ofInt k).units = y.units) (hne : i ≠ k) : Blurs y i ∨ Blurs y k := by
  by_cases hvalue : y.value = i
  · refine Or.inr ⟨Binary64.value_eq_value_iff.mpr hk, fun hvalue' => hne ?_⟩
    exact_mod_cast hvalue.symm.trans hvalue'
  · exact Or.inl ⟨Binary64.value_eq_value_iff.mpr hi, hvalue⟩

/-- Equality goes on from number to number, but not between different integers through a double
that stands for one of them. -/
theorem Coincides.trans {l m n : Json.Number} (h : Coincides l m) (h' : Coincides m n) :
    Coincides l n ∨ ∃ i hi y hy k hk, l = .int i hi ∧ m = .float y hy ∧ n = .int k hk
      ∧ i ≠ k ∧ (Blurs y i ∨ Blurs y k) := by
  have hunits := h.units_eq.trans h'.units_eq
  cases l with
  | float x hx => exact Or.inl hunits
  | int i hi => cases n with
    | float z hz => exact Or.inl hunits
    | int k hk => cases m with
      | int j hj => exact Or.inl (show i = k from Eq.trans h h')
      | float y hy =>
          by_cases hik : i = k
          · exact Or.inl hik
          · exact Or.inr ⟨i, hi, y, hy, k, hk, rfl, rfl, rfl, hik,
              blurs_of_units_eq h h'.units_eq.symm hik⟩

/-- An integer and a double compare by value, in either order of the sides, unless the double
stands for the integer; then they are equal. Only an integer past two to the power of 53 is
stood for, by the double nearest to it. Over all numbers "less" is transitive, and "equal" is
but for two different integers that equal a double standing for one of them. -/
theorem numbers_compare_by_value (hv : v.HoldsInt i) (hi : FitsExact i)
    (hy : y.isFinite = true) :
    (¬ Blurs y i → ∀ op : Operator,
        (holds (some v) op (.number (.float y hy)) = true ↔ op.relates i y.value)
          ∧ (holds (some (.number (.float y hy))) op v = true ↔ op.relates y.value i))
      ∧ (Blurs y i → (∀ op : Operator,
          holds (some v) op (.number (.float y hy)) = op.holdsOf .eq
            ∧ holds (some (.number (.float y hy))) op v = op.holdsOf .eq)
        ∧ 2 ^ 53 < |i| ∧ ∀ x : Binary64, |y.value - i| ≤ |x.value - i|)
      ∧ (∀ l m n : Json.Number, holds (some (.number l)) .less (.number m) = true →
        holds (some (.number m)) .less (.number n) = true →
        holds (some (.number l)) .less (.number n) = true)
      ∧ ∀ l m n : Json.Number, holds (some (.number l)) .equal (.number m) = true →
        holds (some (.number m)) .equal (.number n) = true →
        holds (some (.number l)) .equal (.number n) = true
          ∨ ∃ j hj x hx k hk, l = .int j hj ∧ m = .float x hx ∧ n = .int k hk
            ∧ j ≠ k ∧ (Blurs x j ∨ Blurs x k) := by
  have horder := order?_double hv hi hy
  refine ⟨?_, ?_, ?_, ?_⟩
  · intro hblur op
    obtain ⟨hlt, hgt⟩ := compare_units_iff hi hblur
    have hholds := fun op : Operator =>
      (holds_of_order? horder op).symm ▸ op.holdsOf_iff_relates hlt hgt
    refine ⟨hholds op, ?_⟩
    -- the other way round it is the mirrored operator
    rw [← holds_mirrored, hholds, op.mirrored_relates]
  · intro hblur
    have hholds := fun op : Operator => holds_of_order? horder op
    rw [hblur.compare_units] at hholds
    refine ⟨fun op => ⟨hholds op, ?_⟩, hblur.far hi⟩
    rw [← holds_mirrored, hholds]
    exact op.mirrored_holdsOf_swap .eq
  · intro l m n hlm hmn
    rw [less_numbers_iff] at hlm hmn ⊢
    exact hlm.trans hmn
  · intro l m n hlm hmn
    rw [equal_numbers_iff] at hlm hmn ⊢
    exact hlm.trans hmn

/-- The double two to the power of 53 stands for the integer after it. -/
theorem blurs_after_two_pow : Blurs ⟨0x4340000000000000⟩ 9007199254740993 := by
  constructor
  · rw [Binary64.value_eq_value_iff]
    decide +kernel
  · rw [Ne, Binary64.value_eq_intCast_iff]
    decide +kernel

/-- Given as text, that integer equals the double in either order of the sides; the one before it
is told apart. -/
theorem text_compares_with_two_pow :
    let y : Binary64 := ⟨0x4340000000000000⟩
    (Json.string "9007199254740993").HoldsInt 9007199254740993
      ∧ (Json.string "0x1fffffffffffff").HoldsInt 9007199254740991
      ∧ FitsExact 9007199254740993 ∧ FitsExact 9007199254740991
      ∧ ∃ finite : y.isFinite = true,
        holds (some (.string "9007199254740993")) .equal (.number (.float y finite)) = true
          ∧ holds (some (.number (.float y finite))) .equal (.string "9007199254740993") = true
          ∧ holds (some (.string "0x1fffffffffffff")) .less (.number (.float y finite)) = true := by
  intro y
  have hfits : FitsExact 9007199254740993 := by decide
  have hfits' : FitsExact 9007199254740991 := by decide
  have finite : y.isFinite = true := by decide
  have hread : Numeric.ofJson? (.string "9007199254740993")
      = some (.int 9007199254740993 (by decide)) := by decide +kernel
  have hread' : Numeric.ofJson? (.string "0x1fffffffffffff")
      = some (.int 9007199254740991 (by decide)) := by decide +kernel
  have hholds := Numeric.ofJson?_eq_int_iff.mp hread
  have hholds' := Numeric.ofJson?_eq_int_iff.mp hread'
  have hnear : ¬ Blurs y 9007199254740991 := fun h => absurd (h.far hfits').1 (by decide)
  obtain ⟨-, hblurred, -⟩ := numbers_compare_by_value hholds hfits finite
  obtain ⟨hexact, -⟩ := numbers_compare_by_value hholds' hfits' finite
  obtain ⟨hequal, -⟩ := hblurred blurs_after_two_pow
  refine ⟨hholds, hholds', hfits, hfits', finite, (hequal .equal).1, (hequal .equal).2,
    (hexact hnear .less).1.mpr ?_⟩
  show ((9007199254740991 : Int) : ℚ) < y.value
  rw [Binary64.intCast_lt_value_iff]
  decide +kernel

/-- Equality over numbers is not by value, and not transitive: the integer after two to the power
of 53 equals the double two to the power of 53, which equals the integer. -/
theorem rounded_integer_equals_double :
    let y : Binary64 := ⟨0x4340000000000000⟩
    let after : Int := 9007199254740993
    let same : Int := 9007199254740992
    ∃ (finite : y.isFinite = true) (fits : Json.FitsWord after) (fits' : Json.FitsWord same),
      holds (some (.number (.int after fits))) .equal (.number (.float y finite)) = true
        ∧ ¬ Operator.equal.relates after y.value
        ∧ holds (some (.number (.float y finite))) .equal (.number (.int same fits')) = true
        ∧ holds (some (.number (.int after fits))) .equal (.number (.int same fits')) = false := by
  intro y after same
  refine ⟨by decide, by decide, by decide, by decide +kernel, ?_, by decide +kernel,
    by decide +kernel⟩
  exact blurs_after_two_pow.2.symm

end EventScript.Comparison
