/-
How the comparisons go together. Whether two values have an order is a question of their kinds,
and of a text only when it stands against a number: then it has to spell an amount. Values with
an order are before, equal or after one another, and just one of these; values without one are
equal when they are the same document, and nothing else holds of them but that they differ.

Every comparison can be turned round. Both the order of amounts and the sameness of documents
look at their two sides alike, so this needs no kind of value to be treated apart.
-/
import EventScript.Proofs.Comparison.Integers
import EventScript.Proofs.Numeric.Order

namespace EventScript

-- ============================================================== sameness

namespace Json

theorem Number.same_comm (m n : Number) : m.same n = n.same m := by
  cases m with
  | int i hi => cases n with
    | int j hj => exact BEq.comm
    | float y hy => rfl
  | float x hx => cases n with
    | int j hj => rfl
    | float y hy => exact Decimal.Binary64.sameValue_comm x y

mutual
/-- Values are the same in either order, by one case for each constructor of the first. -/
theorem same_comm : (a b : Json) → a.same b = b.same a
  | .null, b => by cases b <;> rfl
  | .bool x, b => by
      cases b with
      | bool y => exact BEq.comm
      | _ => rfl
  | .number m, b => by
      cases b with
      | number n => exact m.same_comm n
      | _ => rfl
  | .string s, b => by
      cases b with
      | string t => exact BEq.comm
      | _ => rfl
  | .array items, b => by
      cases b with
      | array items' => exact sameItems_comm items items'
      | _ => rfl
  | .object members, b => by
      cases b with
      | object members' => exact sameMembers_comm members members'
      | _ => rfl

theorem sameItems_comm : (as bs : List Json) → sameItems as bs = sameItems bs as
  | [], bs => by cases bs <;> rfl
  | a :: as, bs => by
      cases bs with
      | nil => rfl
      | cons b bs =>
          show (a.same b && sameItems as bs) = (b.same a && sameItems bs as)
          rw [same_comm a b, sameItems_comm as bs]

theorem sameMembers_comm :
    (as bs : List (String × Json)) → sameMembers as bs = sameMembers bs as
  | [], bs => by cases bs <;> rfl
  | (k, a) :: as, bs => by
      cases bs with
      | nil => rfl
      | cons member bs =>
          obtain ⟨l, b⟩ := member
          show (k == l && a.same b && sameMembers as bs) = (l == k && b.same a && sameMembers bs as)
          rw [BEq.comm, same_comm a b, sameMembers_comm as bs]
end

end Json

namespace Comparison

-- ============================================================= the order

/-- Two values that have an order: texts, truth values, numbers, or a number and a text that
spells an amount. -/
inductive Orderable : Json → Json → Prop
  | texts (s t : String) : Orderable (.string s) (.string t)
  | truths (x y : Bool) : Orderable (.bool x) (.bool y)
  | numbers (m n : Json.Number) : Orderable (.number m) (.number n)
  | numberText (n : Json.Number) {s : String} (h : (Numeric.parse? s).isSome = true) :
      Orderable (.number n) (.string s)
  | textNumber {s : String} (h : (Numeric.parse? s).isSome = true) (n : Json.Number) :
      Orderable (.string s) (.number n)

/-- Amounts stand in the opposite order when they change places. -/
theorem amountOrder?_swap (a b : Json) :
    (amountOrder? a b).map Ordering.swap = amountOrder? b a := by
  unfold amountOrder?
  cases Numeric.ofJson? a with
  | none => cases Numeric.ofJson? b <;> rfl
  | some x => cases Numeric.ofJson? b with
    | none => rfl
    | some y => exact x.compare?_swap y

/-- Amounts compare as soon as both values hold one. -/
theorem isSome_amountOrder?_iff {a b : Json} :
    (amountOrder? a b).isSome = true
      ↔ (Numeric.ofJson? a).isSome = true ∧ (Numeric.ofJson? b).isSome = true := by
  unfold amountOrder?
  cases ha : Numeric.ofJson? a with
  | none => simp
  | some x => cases hb : Numeric.ofJson? b with
    | none => simp
    | some y =>
        simpa using Numeric.isSome_compare? (Numeric.isFinite_of_ofJson? ha)
          (Numeric.isFinite_of_ofJson? hb)

/-- Seen from the other side, two values stand the other way round. -/
theorem order?_swap (a b : Json) : (order? a b).map Ordering.swap = order? b a := by
  have hswap : ∀ {α : Type} [Ord α] [Std.OrientedOrd α] (x y : α),
      (some (compare x y)).map Ordering.swap = some (compare y x) :=
    fun _ _ => congrArg some (Std.OrientedOrd.eq_swap).symm
  cases a with
  | string s => cases b with
    | string t => exact hswap s t
    | number n => exact amountOrder?_swap (.string s) (.number n)
    | _ => rfl
  | bool x => cases b with
    | bool y => exact hswap x y
    | _ => rfl
  | number m => cases b with
    | number n => exact amountOrder?_swap (.number m) (.number n)
    | string t => exact amountOrder?_swap (.number m) (.string t)
    | _ => rfl
  | _ => cases b <;> rfl

/-- The values that have an order are the orderable ones. -/
theorem isSome_order?_iff {a b : Json} : (order? a b).isSome = true ↔ Orderable a b := by
  constructor
  · intro h
    cases a with
    | string s => cases b with
      | string t => exact .texts s t
      | number n => exact .textNumber (isSome_amountOrder?_iff.mp h).1 n
      | _ => cases h
    | bool x => cases b with
      | bool y => exact .truths x y
      | _ => cases h
    | number m => cases b with
      | number n => exact .numbers m n
      | string t => exact .numberText m (isSome_amountOrder?_iff.mp h).2
      | _ => cases h
    | _ => cases b <;> cases h
  · intro h
    cases h with
    | texts s t => rfl
    | truths x y => rfl
    | numbers m n =>
        exact (isSome_amountOrder?_iff (a := .number m) (b := .number n)).mpr ⟨rfl, rfl⟩
    | @numberText n s hs =>
        exact (isSome_amountOrder?_iff (a := .number n) (b := .string s)).mpr ⟨rfl, hs⟩
    | @textNumber s hs n =>
        exact (isSome_amountOrder?_iff (a := .string s) (b := .number n)).mpr ⟨hs, rfl⟩

-- ========================================================= the operators

/-- The comparison seen from the other side. -/
def Operator.mirrored : Operator → Operator
  | greater => less
  | greaterEqual => lessEqual
  | lessEqual => greaterEqual
  | less => greater
  | equal => equal
  | notEqual => notEqual

/-- The mirrored operator says of the opposite order what the operator says of the order. -/
theorem Operator.mirrored_holdsOf_swap (op : Operator) (order : Ordering) :
    op.mirrored.holdsOf order.swap = op.holdsOf order := by
  cases op <;> cases order <;> rfl

/-- Without an order, values are the same document or differ. -/
theorem holds_of_not_order {a b : Json} (h : order? a b = none) (op : Operator) :
    holds (some a) op b = match op with
      | .equal => a.same b
      | .notEqual => !a.same b
      | _ => false := by
  cases op <;> simp [holds, h]

/-- A comparison holds when the mirrored one does of the sides exchanged. -/
theorem holds_mirrored (a b : Json) (op : Operator) :
    holds (some b) op.mirrored a = holds (some a) op b := by
  have hswap := order?_swap a b
  cases horder : order? a b with
  | none =>
      rw [horder] at hswap
      rw [holds_of_not_order horder, holds_of_not_order hswap.symm, a.same_comm b]
      cases op <;> rfl
  | some order =>
      rw [horder] at hswap
      rw [holds_of_order? horder, holds_of_order? hswap.symm, op.mirrored_holdsOf_swap]

/-- What the six comparisons of a variable, absent or not, with a literal say together. -/
structure Coherent (actual : Option Json) (expected : Json) : Prop where
  /-- An absent variable is null. -/
  absent : ∀ op, holds actual op expected = holds (some (actual.getD .null)) op expected
  different : holds actual .notEqual expected = !holds actual .equal expected
  /-- The value is not both before, equal to and after the literal in any two ways. -/
  atMostOne : (holds actual .less expected).toNat + (holds actual .equal expected).toNat
    + (holds actual .greater expected).toNat ≤ 1
  mirrored : ∀ op,
    holds actual op expected = holds (some expected) op.mirrored (actual.getD .null)
  ordered : Orderable (actual.getD .null) expected →
    (holds actual .less expected).toNat + (holds actual .equal expected).toNat
        + (holds actual .greater expected).toNat = 1
      ∧ holds actual .lessEqual expected
        = (holds actual .less expected || holds actual .equal expected)
      ∧ holds actual .greaterEqual expected
        = (holds actual .greater expected || holds actual .equal expected)
  unordered : ¬ Orderable (actual.getD .null) expected →
    holds actual .less expected = false ∧ holds actual .lessEqual expected = false
      ∧ holds actual .greater expected = false ∧ holds actual .greaterEqual expected = false

/-- The laws hold of any two values that are there. -/
theorem coherent_of_present (a b : Json) : Coherent (some a) b := by
  have hmirrored := fun op => (holds_mirrored a b op).symm
  cases horder : order? a b with
  | none =>
      have hholds := holds_of_not_order horder
      have hnot : ¬ Orderable a b := by
        rw [← isSome_order?_iff, horder]
        exact Bool.false_ne_true
      refine ⟨fun _ => rfl, ?_, ?_, hmirrored, fun h => absurd h hnot, fun _ => ?_⟩
      · rw [hholds, hholds]
      · rw [hholds, hholds, hholds]
        cases a.same b <;> decide
      · exact ⟨hholds _, hholds _, hholds _, hholds _⟩
  | some order =>
      have hholds := holds_of_order? horder
      have hyes : Orderable a b := by
        rw [← isSome_order?_iff, horder]
        rfl
      refine ⟨fun _ => rfl, ?_, ?_, hmirrored, fun _ => ?_, fun h => absurd hyes h⟩
      · rw [hholds, hholds]
        cases order <;> rfl
      · rw [hholds, hholds, hholds]
        cases order <;> decide
      · rw [hholds, hholds, hholds, hholds, hholds]
        cases order <;> decide

/-- The six comparisons are coherent, whatever is compared. -/
theorem comparisons_coherent (actual : Option Json) (expected : Json) :
    Coherent actual expected := by
  cases actual with
  | some value => exact coherent_of_present value expected
  | none =>
      obtain ⟨-, hdifferent, hone, hmirrored, hordered, hunordered⟩ :=
        coherent_of_present .null expected
      exact ⟨fun _ => rfl, hdifferent, hone, hmirrored, hordered, hunordered⟩

end Comparison
end EventScript
