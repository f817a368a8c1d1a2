/-
What becomes of two integers. Sums, differences and products have an integer for the result,
quotients have one where nothing is left over; it is the amount when it is within 128 bits, and
in all other cases the amount is the double that arithmetic on the nearest doubles gives. There
is no result for a division by zero alone.

The ends of the range need no care of their own: the least integer divided by minus one is one
more than the greatest, so it is a double as a sum that passes the greatest is.
-/
import EventScript.Proofs.Numeric.Exactness

namespace EventScript.Numeric

variable {op : Operation} {a b c : Int}

/-- The operation has the integer for the result of the two operands: it is the amount where it
is within 128 bits, and elsewhere the amount is a double. -/
structure Operation.ComesTo (op : Operation) (ha : FitsExact a) (hb : FitsExact b) (c : Int) :
    Prop where
  exact : ∀ hc : FitsExact c, apply op (.int a ha) (.int b hb) = some (.int c hc)
  inexact : ¬ FitsExact c →
    apply op (.int a ha) (.int b hb) = some (.float (inexact op (.ofInt a) (.ofInt b)))

/-- What an operation comes to exactly, it comes to. -/
theorem Operation.Exact.comesTo (h : op.Exact a b c) (ha : FitsExact a) (hb : FitsExact b) :
    op.ComesTo ha hb c where
  exact hc := h.apply_eq ha hb hc
  inexact hc := by
    have hzero : op = .divide → b ≠ 0 := by
      rintro rfl
      exact h.1
    rw [apply_int hzero, h.exactResult?_eq, Option.bind_some, ofInt?_of_not_fits hc]
    rfl

/-- A division by zero, and only that, has no result. -/
theorem apply_divide_eq_none_iff (ha : FitsExact a) (hb : FitsExact b) :
    apply .divide (.int a ha) (.int b hb) = none ↔ b = 0 := by
  constructor
  · intro h
    by_cases hzero : b = 0
    · exact hzero
    · rw [apply_int fun _ => hzero] at h
      cases h
  · rintro rfl
    have hzero : (Decimal.Binary64.ofInt 0).sameValue .zero = true := by decide
    unfold apply
    exact if_pos hzero

/-- With something left over there is no integer for a quotient. -/
theorem exactResult?_divide_of_not_dvd (h : ¬ b ∣ a) : exactResult? .divide a b = none := by
  unfold exactResult?
  refine if_neg ?_
  rintro ⟨-, hrest⟩
  exact h (Int.dvd_of_tmod_eq_zero hrest)

/-- The four operations on integers are exact, as long as the result is an integer within 128
bits. -/
theorem integers_computed_exactly (ha : FitsExact a) (hb : FitsExact b) :
    Operation.ComesTo .add ha hb (a + b)
      ∧ Operation.ComesTo .subtract ha hb (a - b)
      ∧ Operation.ComesTo .multiply ha hb (a * b)
      ∧ (apply .divide (.int a ha) (.int b hb) = none ↔ b = 0)
      ∧ (b ≠ 0 → b ∣ a → Operation.ComesTo .divide ha hb (a / b))
      ∧ (b ≠ 0 → ¬ b ∣ a → apply .divide (.int a ha) (.int b hb)
        = some (.float (inexact .divide (.ofInt a) (.ofInt b)))) := by
  have hadd : Operation.Exact .add a b (a + b) := rfl
  have hsubtract : Operation.Exact .subtract a b (a - b) := rfl
  have hmultiply : Operation.Exact .multiply a b (a * b) := rfl
  refine ⟨hadd.comesTo ha hb, hsubtract.comesTo ha hb, hmultiply.comesTo ha hb,
    apply_divide_eq_none_iff ha hb, ?_, ?_⟩
  · intro hne hdvd
    have hdivide : Operation.Exact .divide a b (a / b) :=
      ⟨hne, (Int.ediv_mul_cancel hdvd).symm⟩
    exact hdivide.comesTo ha hb
  · intro hne hdvd
    rw [apply_int fun _ => hne, exactResult?_divide_of_not_dvd hdvd]
    rfl

/-- The least integer has no negative of its own size, so divided by minus one it is the double
two to the power of 127. -/
theorem least_by_minus_one :
    let least := -0x80000000000000000000000000000000
    ∃ (hleast : FitsExact least) (hminus : FitsExact (-1)),
      (-1 : Int) ∣ least ∧ ¬ FitsExact (least / -1)
        ∧ apply .divide (.int least hleast) (.int (-1) hminus)
          = some (.float ⟨0x47E0000000000000⟩) := by
  intro least
  have hleast : FitsExact least := by decide
  have hminus : FitsExact (-1) := by decide
  have hquotient : ¬ FitsExact (least / -1) := by decide
  have hdvd : (-1 : Int) ∣ least := by decide
  obtain ⟨-, -, -, -, hdivide, -⟩ := integers_computed_exactly hleast hminus
  refine ⟨hleast, hminus, hdvd, hquotient, ?_⟩
  rw [(hdivide (by decide) hdvd).inexact hquotient]
  decide +kernel

end EventScript.Numeric
