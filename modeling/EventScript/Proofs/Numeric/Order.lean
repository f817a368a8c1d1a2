/-
The order of amounts. What a value holds as an amount is never infinite and never without a
number: integers of 128 bits are far below the greatest double, numbers in documents are
finite, and a text that spells anything else is no amount. So two amounts that values hold
always compare, and the other way round from the other side.
-/
import EventScript.Numeric.Basic
import EventScript.Proofs.Decimal.Order

namespace EventScript.Numeric

open Decimal (Binary64)

/-- An amount that is a number. -/
def IsFinite : Numeric → Prop
  | int _ _ => True
  | float x => x.isFinite = true

instance : (n : Numeric) → Decidable n.IsFinite
  | int _ _ => inferInstanceAs (Decidable True)
  | float x => inferInstanceAs (Decidable (x.isFinite = true))

variable {n n' : Numeric} {v : Json} {i : Int}

/-- No integer within 128 bits is beyond the doubles. -/
theorem isFinite_ofInt_of_fits (h : FitsExact i) : (Binary64.ofInt i).isFinite = true := by
  have hpast : 2 ^ 127 < 2 ^ 1024 - 2 ^ 970 := by decide +kernel
  unfold FitsExact at h
  rw [Binary64.isFinite_ofInt_iff]
  exact Nat.lt_of_le_of_lt (by omega : i.natAbs ≤ 2 ^ 127) hpast

theorem IsFinite.toBinary64 (h : n.IsFinite) : n.toBinary64.isFinite = true := by
  cases n with
  | int i hi => exact isFinite_ofInt_of_fits hi
  | float x => exact h

/-- A text spells a number or is no amount. -/
theorem isFinite_of_parse? {s : String} (h : parse? s = some n) : n.IsFinite := by
  have hint : ∀ {o : Option Int}, o.bind ofInt? = some n → n.IsFinite := by
    intro o ho
    obtain ⟨i, -, hi⟩ := Option.bind_eq_some_iff.mp ho
    unfold ofInt? at hi
    split at hi
    case isTrue =>
      cases hi
      trivial
    case isFalse => cases hi
  unfold parse? at h
  split at h
  · cases h
  · exact hint h
  · exact hint h
  · rw [← Option.or_eq_orElse] at h
    rcases Option.or_eq_some_iff.mp h with hexact | ⟨-, hdouble⟩
    · exact hint hexact
    · obtain ⟨x, hx, rfl⟩ := Option.map_eq_some_iff.mp hdouble
      exact (Option.filter_eq_some_iff.mp hx).2

/-- What a value holds is a number. -/
theorem isFinite_of_ofJson? (h : ofJson? v = some n) : n.IsFinite := by
  cases v with
  | number m =>
      cases m with
      | int i hi =>
          cases h
          trivial
      | float x hx =>
          cases h
          exact hx
  | string s => exact isFinite_of_parse? h
  | _ => cases h

/-- Amounts that are numbers compare. -/
theorem isSome_compare? (h : n.IsFinite) (h' : n'.IsFinite) : (n.compare? n').isSome = true := by
  have hdoubles := Binary64.compare?_of_isFinite h.toBinary64 h'.toBinary64
  cases n with
  | int i hi =>
      cases n' with
      | int j hj => rfl
      | float y => exact Option.isSome_of_eq_some hdoubles
  | float x => exact Option.isSome_of_eq_some hdoubles

/-- Seen from the other side, two amounts compare the other way round. -/
theorem compare?_swap (n n' : Numeric) : (n.compare? n').map Ordering.swap = n'.compare? n := by
  have hdoubles := Binary64.compare?_swap n.toBinary64 n'.toBinary64
  cases n with
  | int i hi =>
      cases n' with
      | int j hj => exact congrArg some (Std.OrientedOrd.eq_swap).symm
      | float y => exact hdoubles
  | float x => cases n' <;> exact hdoubles

end EventScript.Numeric
