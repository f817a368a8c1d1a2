/-
Taking an item out of a list, seen from the list. Each operation is about one position: the last,
the first, or the one that an index means, which counts from the front or, when it is negative,
from behind the end. Where there is such a position, the item there is yielded and the others stay
in their order, so nothing is lost and nothing is there twice; where there is none, nothing is
yielded, and the list in the variables is the one there was.

The position is computed from an index and a length that are words of 64 bits. The only sum is
that of a length and a negative index, which lies between the two, so no sum goes round, not even
that with the least index.
-/
import EventScript.Proofs.Instruction.Transform

namespace EventScript.Instruction.ArrayAccess

variable {items rest : List Json} {v : Json} {index : Option Int} {count k : Nat}

-- ============================================================== positions

/-- The position that an index means, computed in words, whose sums go round. -/
def wordPosition? (index : Int64) (count : Nat) : Option Nat :=
  let last := Int64.ofNat count
  let i := if index < 0 then last + index else index
  if 0 ≤ i ∧ i < last then some i.toNatClampNeg else none

/-- A length and a negative index have their sum in a word. -/
theorem toInt_length_add {index : Int64} (hcount : count < 2 ^ 63) (hneg : index < 0) :
    (Int64.ofNat count + index).toInt = count + index.toInt := by
  have hlow := index.le_toInt
  have hnegative : index.toInt < 0 := Int64.lt_iff_toInt_lt.mp hneg
  rw [Int64.toInt_add, Int64.toInt_ofNat_of_lt hcount]
  apply Int.bmod_eq_of_le <;> omega

/-- In words of 64 bits a position is the one in integers, for lists shorter than half the words. -/
theorem wordPosition?_eq (index : Int64) (hcount : count < 2 ^ 63) :
    wordPosition? index count = position? index.toInt count := by
  have hlast : (Int64.ofNat count).toInt = count := Int64.toInt_ofNat_of_lt hcount
  have hnegative : index < 0 ↔ index.toInt < 0 := Int64.lt_iff_toInt_lt
  have hi : (if index < 0 then Int64.ofNat count + index else index).toInt
      = if index.toInt < 0 then count + index.toInt else index.toInt := by
    by_cases hneg : index < 0
    · rw [if_pos hneg, if_pos (hnegative.mp hneg), toInt_length_add hcount hneg]
    · rw [if_neg hneg, if_neg (mt hnegative.mpr hneg)]
  unfold wordPosition? position?
  dsimp only
  generalize (if index < 0 then Int64.ofNat count + index else index) = i at hi ⊢
  simp [Int64.le_iff_toInt_le, Int64.lt_iff_toInt_lt, hlast, ← hi]

-- ================================================================ removal

/-- What comes of taking the item at a position out of a list: the item, and the others as they
stood before it and after it. -/
def TakesAt (items : List Json) (k : Int) (done : Option (Json × List Json)) : Prop :=
  ∃ before v after, items = before ++ v :: after ∧ (before.length : Int) = k
    ∧ done = some (v, before ++ after)

/-- The item at a position of the list is taken. -/
theorem takesAt_take? (h : k < items.length) : TakesAt items k (take? items k) := by
  have hsome : take? items k = some (items[k], items.eraseIdx k) := by simp [take?, h]
  obtain ⟨before, after, hitems, hrest, hlength⟩ := take?_eq_some_iff.mp hsome
  exact ⟨before, items[k], after, hitems, congrArg Int.ofNat hlength, by rw [hsome, hrest]⟩

/-- The item that an index means is taken. -/
theorem takesAt_position (h : position? (index.getD 0) items.length = some k) :
    TakesAt items k (apply .takeAt index items) := by
  have happly : apply .takeAt index items = take? items k := by simp [apply, h]
  rw [happly]
  exact takesAt_take? (position?_eq_some_iff.mp h).1

/-- With an item taken, the variables hold the list without it. -/
theorem result_of_apply {i : ArrayAccess} {g : Globals}
    (hsource : g.getPath? i.variableName = some (.array items))
    (happly : apply i.operation i.index items = some (v, rest)) :
    ∃ g', i.result g = .ok (v, g') ∧ g'.getPath? i.variableName = some (.array rest) := by
  refine ⟨g.overwrite i.variableName (.array rest), by simp only [result, hsource, happly], ?_⟩
  exact (Globals.overwrite_rewritten hsource (.array rest)).get?

/-- Without one they are what they were. -/
theorem run_of_apply {i : ArrayAccess} {g : Globals}
    (hsource : g.getPath? i.variableName = some (.array items))
    (happly : apply i.operation i.index items = none) : (i.run g).globals = g := by
  simp only [run, result, hsource, happly]
  rfl

/-- Removal conserves the items of a list. An index means a position from the front or, below
zero, from behind the end, and an absent one the first; the item at the position is yielded and
the others stay in their order. The last and the first item are taken whenever there is one. With
nothing at the position nothing is yielded. The variables have the list that is left, or all stay
as they were; and in words of 64 bits, in which the index is given, the position comes out the
same, without a sum that goes round. -/
theorem removal_conserves_items (items : List Json) (index : Option Int) :
    (0 ≤ index.getD 0 → index.getD 0 < items.length →
      TakesAt items (index.getD 0) (apply .takeAt index items))
    ∧ (-(items.length : Int) ≤ index.getD 0 → index.getD 0 < 0 →
      TakesAt items (items.length + index.getD 0) (apply .takeAt index items))
    ∧ (index.getD 0 < -(items.length : Int) ∨ (items.length : Int) ≤ index.getD 0 →
      apply .takeAt index items = none)
    ∧ (0 < items.length → TakesAt items (items.length - 1) (apply .takeLast index items)
      ∧ TakesAt items 0 (apply .takeFirst index items))
    ∧ (items.length = 0 → apply .takeLast index items = none ∧ apply .takeFirst index items = none)
    ∧ (∀ (i : ArrayAccess) (g : Globals), i.index = index →
      g.getPath? i.variableName = some (.array items) →
        (∀ v rest, apply i.operation index items = some (v, rest) →
          ∃ g', i.result g = .ok (v, g') ∧ g'.getPath? i.variableName = some (.array rest))
        ∧ (apply i.operation index items = none → (i.run g).globals = g))
    ∧ (items.length < 2 ^ 63 → ∀ word : Int64,
      wordPosition? word items.length = position? word.toInt items.length
        ∧ (word < 0 → (Int64.ofNat items.length + word).toInt = items.length + word.toInt)) := by
  refine ⟨?_, ?_, ?_, ?_, ?_, ?_, ?_⟩
  · intro hfront hbound
    obtain ⟨k, hk⟩ := Int.eq_ofNat_of_zero_le hfront
    rw [hk] at hbound ⊢
    exact takesAt_position (position?_eq_some_iff.mpr ⟨by omega, Or.inl hk⟩)
  · intro hbound hback
    obtain ⟨k, hk⟩ := Int.eq_ofNat_of_zero_le (show 0 ≤ items.length + index.getD 0 by omega)
    rw [hk]
    exact takesAt_position (position?_eq_some_iff.mpr ⟨by omega, Or.inr (by omega)⟩)
  · intro hoff
    exact apply_eq_none_iff.mpr (Or.inl ⟨rfl, hoff⟩)
  · intro hpos
    refine ⟨?_, takesAt_take? hpos⟩
    have hlast : ((items.length - 1 : Nat) : Int) = items.length - 1 := by omega
    rw [← hlast]
    exact takesAt_take? (Nat.sub_lt hpos Nat.one_pos)
  · intro hempty
    have hnil := List.eq_nil_of_length_eq_zero hempty
    exact ⟨apply_eq_none_iff.mpr (Or.inr ⟨Or.inl rfl, hnil⟩),
      apply_eq_none_iff.mpr (Or.inr ⟨Or.inr rfl, hnil⟩)⟩
  · rintro i g rfl hsource
    exact ⟨fun v rest happly => result_of_apply hsource happly,
      fun happly => run_of_apply hsource happly⟩
  · intro hlength word
    exact ⟨wordPosition?_eq word hlength, toInt_length_add hlength⟩

/-- Either end of a list of three by an index, and the least index of all. -/
theorem removal_conserves_items_of_three :
    let items := [Json.null, .bool true, .bool false]
    TakesAt items 0 (apply .takeAt (some (-3)) items)
      ∧ TakesAt items 2 (apply .takeAt (some 2) items)
      ∧ apply .takeAt (some 3) items = none
      ∧ TakesAt items 2 (apply .takeLast none items)
      ∧ (apply .takeLast none ([] : List Json) = none)
      ∧ ((⟨"list", .takeAt, some (-4), "out"⟩ : ArrayAccess).run
          ⟨[("list", .array items)]⟩).globals = ⟨[("list", .array items)]⟩
      ∧ wordPosition? Int64.minValue items.length = none := by
  intro items
  have hleast : position? (Int64.minValue).toInt items.length = none :=
    position?_eq_none_iff.mpr (Or.inl (by decide))
  have hfront : (items.length : Int) + (some (-3 : Int)).getD 0 = 0 := by decide
  refine ⟨hfront ▸ (removal_conserves_items items (some (-3))).2.1 (by decide) (by decide),
    (removal_conserves_items items (some 2)).1 (by decide) (by decide),
    (removal_conserves_items items (some 3)).2.2.1 (Or.inr (by decide)),
    ((removal_conserves_items items none).2.2.2.1 (by decide)).1,
    ((removal_conserves_items [] none).2.2.2.2.1 rfl).1, ?_, ?_⟩
  · have hnone := (removal_conserves_items items (some (-4))).2.2.1 (Or.inl (by decide))
    exact ((removal_conserves_items items (some (-4))).2.2.2.2.2.1
      ⟨"list", .takeAt, some (-4), "out"⟩ _ rfl (by dsimp only [items]; rfl)).2 hnone
  · rw [((removal_conserves_items items none).2.2.2.2.2.2 (by decide) Int64.minValue).1]
    exact hleast

end EventScript.Instruction.ArrayAccess
