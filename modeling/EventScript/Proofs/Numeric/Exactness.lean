/-
Where arithmetic is exact. Four of the operations have an integer for the result of two
integers, a division only when nothing is left over. When the operands and that integer are
within 128 bits, it is the result, and doubles do not come into it, except in one place: a
divisor is compared with zero as a double. An integer other than zero is worth more than the
smallest doubles, so that it is not mistaken for zero there.
-/
import EventScript.Numeric.Arithmetic
import EventScript.Proofs.Decimal.Rounding
import EventScript.Proofs.Numeric.Spelling

namespace EventScript.Numeric

/-- The operation has this integer for the result of the two; a division leaves nothing
over. -/
def Operation.Exact : Operation → Int → Int → Int → Prop
  | add, a, b, c => c = a + b
  | subtract, a, b, c => c = a - b
  | multiply, a, b, c => c = a * b
  | divide, a, b, c => b ≠ 0 ∧ a = c * b
  | pow, _, _, _ => False
  | bigint, _, _, _ => False

instance : (op : Operation) → (a b c : Int) → Decidable (op.Exact a b c)
  | .add, _, _, _ => inferInstanceAs (Decidable (_ = _))
  | .subtract, _, _, _ => inferInstanceAs (Decidable (_ = _))
  | .multiply, _, _, _ => inferInstanceAs (Decidable (_ = _))
  | .divide, _, _, _ => inferInstanceAs (Decidable (_ ∧ _))
  | .pow, _, _, _ => inferInstanceAs (Decidable False)
  | .bigint, _, _, _ => inferInstanceAs (Decidable False)

variable {op : Operation} {a b c : Int}

/-- The code computes the integer that is the exact result. -/
theorem Operation.Exact.exactResult?_eq (h : op.Exact a b c) : exactResult? op a b = some c := by
  cases op with
  | add => exact congrArg some h.symm
  | subtract => exact congrArg some h.symm
  | multiply => exact congrArg some h.symm
  | divide =>
      obtain ⟨hb, rfl⟩ := h
      unfold exactResult?
      rw [if_pos ⟨hb, Int.mul_tmod_left c b⟩, Int.mul_tdiv_cancel c hb]
  | pow => cases h
  | bigint => cases h

/-- Unless it divides by zero, an operation on integers has a result: the integer it comes to,
where there is one within 128 bits, and what doubles give elsewhere. -/
theorem apply_int (hzero : op = .divide → b ≠ 0) (ha : FitsExact a) (hb : FitsExact b) :
    apply op (.int a ha) (.int b hb)
      = some (((exactResult? op a b).bind ofInt?).getD
          (.float (inexact op (.ofInt a) (.ofInt b)))) := by
  have hdivisor : (op = .divide && (Numeric.int b hb).toBinary64.sameValue .zero) = false := by
    by_cases hop : op = .divide
    · show (op = .divide && (Decimal.Binary64.ofInt b).sameValue .zero) = false
      rw [Decimal.Binary64.sameValue_ofInt_zero (hzero hop), Bool.and_false]
    · simp [hop]
  unfold apply
  rw [hdivisor]
  rfl

/-- Operands within 128 bits are computed with exactly, where the result is within them. -/
theorem Operation.Exact.apply_eq (h : op.Exact a b c) (ha : FitsExact a) (hb : FitsExact b)
    (hc : FitsExact c) : apply op (.int a ha) (.int b hb) = some (.int c hc) := by
  have hzero : op = .divide → b ≠ 0 := by
    rintro rfl
    exact h.1
  rw [apply_int hzero, h.exactResult?_eq, Option.bind_some, ofInt?_of_fits hc]
  rfl

/-- With a double on the right there is a double for the result, or none. -/
theorem apply_float (op : Operation) (x : Numeric) (y : Decimal.Binary64) :
    apply op x (.float y) = none ∨ ∃ z, apply op x (.float y) = some (.float z) := by
  have hprecise : precise? op x (.float y) = none := by
    cases x <;> rfl
  unfold apply
  rw [hprecise]
  split
  · exact Or.inl rfl
  · exact Or.inr ⟨_, rfl⟩

/-- A double is kept as a number that is a double, or not at all. -/
theorem toJson?_float (x : Decimal.Binary64) :
    toJson? (.float x) = none
      ∨ ∃ finite, toJson? (.float x) = some (.number (.float x finite)) := by
  unfold toJson? Json.Number.ofBinary64?
  dsimp only
  split
  case isTrue finite => exact Or.inr ⟨finite, rfl⟩
  case isFalse => exact Or.inl rfl

end EventScript.Numeric
