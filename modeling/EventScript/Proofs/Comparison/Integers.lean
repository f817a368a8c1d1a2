/-
Comparing integers as variables keep them. An integer in the range of JSON numbers is kept
as a number, any other as its decimal text. As soon as one side is a number the two are
compared as amounts, so by value. When neither is, both are texts, and texts compare by
their characters, whatever they spell.

Texts being equal only for equal integers, equality is by value throughout. The order of
texts is that of the integers when the signs differ, and among positive integers of equally
many digits; it is not beyond that.
-/
import EventScript.Comparison
import EventScript.Proofs.Numeric.Spelling

namespace EventScript.Comparison

/-- What the sign says of two integers. -/
def Operator.decides : Operator → Int → Int → Bool
  | greater, a, b => b < a
  | greaterEqual, a, b => b ≤ a
  | lessEqual, a, b => a ≤ b
  | less, a, b => a < b
  | equal, a, b => a = b
  | notEqual, a, b => a ≠ b

/-- Of the order of two integers an operator holds where its sign says so of the integers. -/
theorem Operator.holdsOf_compare (op : Operator) (a b : Int) :
    op.holdsOf (compare a b) = op.decides a b := by
  rcases Int.lt_trichotomy a b with h | rfl | h
  · rw [Int.compare_eq_lt.mpr h]
    cases op <;> simp [holdsOf, decides] <;> omega
  · rw [Std.ReflOrd.compare_self]
    cases op <;> simp [holdsOf, decides]
  · rw [Int.compare_eq_gt.mpr h]
    cases op <;> simp [holdsOf, decides] <;> omega

variable {a b : Int}

-- =============================================================== the order

/-- As amounts, integers within 128 bits stand in their own order, however each is kept. -/
theorem amountOrder?_ofInt (ha : FitsExact a) (hb : FitsExact b) :
    amountOrder? (Json.ofInt a) (Json.ofInt b) = some (compare a b) := by
  unfold amountOrder?
  rw [Numeric.ofJson?_ofInt ha, Numeric.ofJson?_ofInt hb]
  rfl

/-- With a number on one side, integers compare as amounts. -/
theorem order?_ofInt_of_fits (ha : FitsExact a) (hb : FitsExact b)
    (h : Json.FitsWord a ∨ Json.FitsWord b) :
    order? (Json.ofInt a) (Json.ofInt b) = some (compare a b) := by
  rw [← amountOrder?_ofInt ha hb]
  by_cases hwa : Json.FitsWord a
  · rw [Json.ofInt_of_fits hwa]
    by_cases hwb : Json.FitsWord b
    · rw [Json.ofInt_of_fits hwb]
      rfl
    · rw [Json.ofInt_of_not_fits hwb]
      rfl
  · rw [Json.ofInt_of_not_fits hwa, Json.ofInt_of_fits (h.resolve_left hwa)]
    rfl

/-- Without one, they compare as texts. -/
theorem order?_ofInt_of_not_fits (ha : ¬ Json.FitsWord a) (hb : ¬ Json.FitsWord b) :
    order? (Json.ofInt a) (Json.ofInt b) = some (compare (toString a) (toString b)) := by
  rw [Json.ofInt_of_not_fits ha, Json.ofInt_of_not_fits hb]
  rfl

/-- Two integers whose kept forms are in the order of the integers: one of them is a number,
or the signs differ, or neither is negative and they have equally many digits. -/
def KeptInOrder (a b : Int) : Prop :=
  (Json.FitsWord a ∨ Json.FitsWord b) ∨ (a < 0 ∧ 0 ≤ b) ∨ (b < 0 ∧ 0 ≤ a)
    ∨ (0 ≤ a ∧ 0 ≤ b ∧ (toString a).length = (toString b).length)

/-- Where the way they are kept does not disturb it, integers are compared as integers. -/
theorem KeptInOrder.order?_eq (h : KeptInOrder a b) (ha : FitsExact a) (hb : FitsExact b) :
    order? (Json.ofInt a) (Json.ofInt b) = some (compare a b) := by
  by_cases hword : Json.FitsWord a ∨ Json.FitsWord b
  · exact order?_ofInt_of_fits ha hb hword
  · obtain ⟨hwa, hwb⟩ := not_or.mp hword
    rw [order?_ofInt_of_not_fits hwa hwb]
    refine congrArg some (Text.compare_toString_of_ascending ?_ ?_)
    · intro hlt
      rcases h.resolve_left hword with ⟨hneg, hpos⟩ | ⟨hneg, hpos⟩ | ⟨hpa, -, hlen⟩
      · exact Text.toString_lt_of_neg hneg hpos
      · omega
      · exact Text.toString_lt_of_length_eq hpa hlt hlen
    · intro hlt
      rcases h.resolve_left hword with ⟨hneg, hpos⟩ | ⟨hneg, hpos⟩ | ⟨-, hpb, hlen⟩
      · omega
      · exact Text.toString_lt_of_neg hneg hpos
      · exact Text.toString_lt_of_length_eq hpb hlt hlen.symm

-- ============================================================ the operators

/-- Where two values have an order, it decides every operator. -/
theorem holds_of_order? {x y : Json} {order : Ordering} (h : order? x y = some order)
    (op : Operator) : holds (some x) op y = op.holdsOf order := by
  unfold holds
  simp only [Option.getD_some, h]

/-- Texts of integers are equal when the integers are. -/
theorem holdsOf_compare_toString (op : Operator) (h : op = .equal ∨ op = .notEqual) :
    op.holdsOf (compare (toString a) (toString b)) = op.decides a b := by
  by_cases hab : a = b
  · subst hab
    rw [Std.ReflOrd.compare_self]
    rcases h with rfl | rfl <;> simp [Operator.holdsOf, Operator.decides]
  · have hne : compare (toString a) (toString b) ≠ .eq := by
      intro heq
      exact hab (Text.toString_inj.mp (Std.LawfulEqOrd.eq_of_compare heq))
    cases hc : compare (toString a) (toString b) with
    | eq => exact absurd hc hne
    | lt => rcases h with rfl | rfl <;> simp [Operator.holdsOf, Operator.decides, hab]
    | gt => rcases h with rfl | rfl <;> simp [Operator.holdsOf, Operator.decides, hab]

/-- Integers that fit an exact amount, as variables and literals keep them: `=` and `!=`
decide by value, and so does every operator where the kept forms are in order. Where both
are beyond the range of numbers, every operator decides by the order of the texts. -/
theorem holds_ofInt (op : Operator) (ha : FitsExact a) (hb : FitsExact b) :
    (KeptInOrder a b ∨ op = .equal ∨ op = .notEqual →
      holds (some (Json.ofInt a)) op (Json.ofInt b) = op.decides a b)
    ∧ (¬ Json.FitsWord a → ¬ Json.FitsWord b →
      holds (some (Json.ofInt a)) op (Json.ofInt b)
        = op.holdsOf (compare (toString a) (toString b))) := by
  have htexts : ¬ Json.FitsWord a → ¬ Json.FitsWord b →
      holds (some (Json.ofInt a)) op (Json.ofInt b)
        = op.holdsOf (compare (toString a) (toString b)) :=
    fun hwa hwb => holds_of_order? (order?_ofInt_of_not_fits hwa hwb) op
  refine ⟨?_, htexts⟩
  intro h
  by_cases hkept : KeptInOrder a b
  · rw [holds_of_order? (hkept.order?_eq ha hb), op.holdsOf_compare]
  · obtain ⟨hwa, hwb⟩ := not_or.mp (not_or.mp hkept).1
    rw [htexts hwa hwb]
    exact holdsOf_compare_toString op (h.resolve_left hkept)

/-- At the edge of the numbers: the first integer beyond it against the last one within, and
against another beyond. -/
theorem holds_ofInt_beyond_word :
    let a : Int := 18446744073709551616
    let b : Int := 18446744073709551615
    let c : Int := 100000000000000000000
    FitsExact a ∧ FitsExact b ∧ FitsExact c ∧ KeptInOrder a b
      ∧ holds (some (Json.ofInt a)) .greater (Json.ofInt b) = true
      ∧ ¬ Json.FitsWord a ∧ ¬ Json.FitsWord c
      ∧ holds (some (Json.ofInt a)) .less (Json.ofInt c) = false := by
  intro a b c
  have ha : FitsExact a := by decide
  have hb : FitsExact b := by decide
  have hc : FitsExact c := by decide
  have hkept : KeptInOrder a b := Or.inl (Or.inr (by decide))
  have hwa : ¬ Json.FitsWord a := by decide
  have hwc : ¬ Json.FitsWord c := by decide
  refine ⟨ha, hb, hc, hkept, (holds_ofInt .greater ha hb).1 (Or.inl hkept), hwa, hwc, ?_⟩
  rw [(holds_ofInt .less ha hc).2 hwa hwc]
  decide

/-- The greater of two integers beyond the numbers does not compare as greater when its text
comes first. -/
theorem long_integers_out_of_order :
    let a : Int := 100000000000000000000
    let b : Int := 99999999999999999999
    FitsExact a ∧ FitsExact b
      ∧ holds (some (Json.ofInt a)) .greater (Json.ofInt b) ≠ Operator.greater.decides a b := by
  decide

end EventScript.Comparison
