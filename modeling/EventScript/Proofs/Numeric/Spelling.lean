/-
Which texts spell an integer. Amounts come as text in more than one form, and what integer a
text stands for is said here without a reader: its characters are digits of the radix, and
they are worth what positional notation says, the last one least. A sign may stand before
the digits, and `0x` before hexadecimal ones; blanks around the whole do not count.

The readers read exactly that. An integer that a text spells is read as itself when it is
within 128 bits, and what is read as an integer is spelled by the text. So an exact amount
passes through a variable: it is kept as a number where it fits one and as its decimal text
elsewhere, and read again it is the same amount in either form.
-/
import EventScript.Numeric.Basic
import EventScript.Proofs.Text.Numeral
import Mathlib.Data.Nat.Digits.Defs

namespace EventScript

-- ============================================================ the passage

namespace Numeric

/-- An integer within 128 bits is an exact amount. -/
theorem ofInt?_of_fits {i : Int} (h : FitsExact i) : ofInt? i = some (.int i h) :=
  dif_pos h

theorem ofInt?_of_not_fits {i : Int} (h : ¬ FitsExact i) : ofInt? i = none :=
  dif_neg h

/-- The decimal text of an integer spells that integer. -/
theorem parse?_toString {i : Int} (h : FitsExact i) : parse? (toString i) = some (.int i h) := by
  have hchars := fun c => Text.mem_toString (i := i) (c := c)
  have hread := Text.signed?_toString i
  unfold parse?
  rw [Text.trimmed_toString]
  split
  · next hnil =>
    rw [hnil] at hread
    cases hread
  · -- there is no `x` in a decimal text
    next heq => exact absurd (hchars 'x' (by rw [heq]; simp)) (by decide)
  · next heq => exact absurd (hchars 'X' (by rw [heq]; simp)) (by decide)
  · rw [hread, Option.bind_some, ofInt?_of_fits h]
    rfl

/-- The value that keeps an integer holds that integer as an amount. -/
theorem ofJson?_ofInt {i : Int} (h : FitsExact i) : ofJson? (Json.ofInt i) = some (.int i h) := by
  unfold Json.ofInt Json.Number.ofInt?
  split
  · next n hn =>
    split at hn
    case isTrue =>
      cases hn
      rfl
    case isFalse => cases hn
  · exact parse?_toString h

end Numeric

-- =========================================================== the notation

namespace Text

variable {radix n : Nat} {cs : List Char} {i : Int}

/-- The characters are digits that stand for the number, at least one. -/
def WritesNat (radix : Nat) (cs : List Char) (n : Nat) : Prop :=
  cs ≠ [] ∧ ∃ ds, List.Forall₂ (fun c d => digitValue? radix c = some d) cs ds
    ∧ n = Nat.ofDigits radix ds.reverse

/-- The characters are digits behind a sign or none. -/
inductive WritesInt (radix : Nat) : List Char → Int → Prop
  | plain {cs : List Char} {n : Nat} : WritesNat radix cs n → WritesInt radix cs n
  | plus {cs : List Char} {n : Nat} : WritesNat radix cs n → WritesInt radix ('+' :: cs) n
  | minus {cs : List Char} {n : Nat} : WritesNat radix cs n → WritesInt radix ('-' :: cs) (-n)

/-- The text spells the integer: in decimal, or in hexadecimal behind `0x`. -/
inductive Spells (text : String) (i : Int) : Prop
  | decimal : WritesInt 10 (trimmed text.toList) i → Spells text i
  | hexadecimal {x : Char} {digits : List Char} : trimmed text.toList = '0' :: x :: digits →
      x = 'x' ∨ x = 'X' → WritesInt 16 digits i → Spells text i

-- ============================================================ the readers

/-- Digits are read as they are worth, with what was read before in front of them. -/
theorem digitsFrom?_eq_some_iff {acc : Nat} :
    digitsFrom? radix acc cs = some n ↔
      ∃ ds, List.Forall₂ (fun c d => digitValue? radix c = some d) cs ds
        ∧ n = Nat.ofDigits radix (ds.reverse ++ [acc]) := by
  induction cs generalizing acc with
  | nil =>
      constructor
      · intro h
        cases h
        exact ⟨[], .nil, (Nat.ofDigits_singleton).symm⟩
      · intro h
        obtain ⟨_, hall, rfl⟩ := h
        cases hall
        exact congrArg some (Nat.ofDigits_singleton).symm
  | cons c cs ih =>
      have hstep : ∀ (d : Nat) (ds : List Nat),
          Nat.ofDigits radix (ds.reverse ++ [acc * radix + d])
            = Nat.ofDigits radix ((d :: ds).reverse ++ [acc]) := by
        intro d ds
        rw [List.reverse_cons, List.append_assoc, Nat.ofDigits_append, Nat.ofDigits_append]
        simp [Nat.ofDigits_cons, Nat.add_comm, Nat.mul_comm]
      show (digitValue? radix c).bind (fun d => digitsFrom? radix (acc * radix + d) cs) = some n ↔ _
      rw [Option.bind_eq_some_iff]
      constructor
      · intro h
        obtain ⟨d, hd, hrest⟩ := h
        obtain ⟨ds, hds, rfl⟩ := ih.mp hrest
        exact ⟨d :: ds, .cons hd hds, hstep d ds⟩
      · intro h
        obtain ⟨_, hall, rfl⟩ := h
        cases hall with
        | @cons _ d _ ds hd hds => exact ⟨d, hd, ih.mpr ⟨ds, hds, (hstep d ds).symm⟩⟩

/-- The reader of digits reads what they write. -/
theorem natural?_eq_some_iff : natural? radix cs = some n ↔ WritesNat radix cs n := by
  cases cs with
  | nil => simp [natural?, WritesNat]
  | cons c cs =>
      have hzero : ∀ ds : List Nat,
          Nat.ofDigits radix (ds.reverse ++ [0]) = Nat.ofDigits radix ds.reverse := by
        intro ds
        simp [Nat.ofDigits_append]
      rw [natural?, digitsFrom?_eq_some_iff, WritesNat]
      · simp [hzero]
      · exact List.cons_ne_nil c cs

/-- No sign is a digit. -/
theorem not_writesNat_sign {c : Char} (hc : c = '+' ∨ c = '-') :
    ¬ WritesNat radix (c :: cs) n := by
  intro h
  obtain ⟨-, ds, hds, -⟩ := h
  cases hds with
  | cons hd _ =>
      rcases hc with rfl | rfl
      · simp [digitValue?] at hd
      · simp [digitValue?] at hd

/-- The reader of signed digits reads what they write. -/
theorem signed?_eq_some_iff : signed? radix cs = some i ↔ WritesInt radix cs i := by
  unfold signed?
  constructor
  · intro h
    split at h
    · obtain ⟨n, hn, rfl⟩ := Option.map_eq_some_iff.mp h
      exact .plus (natural?_eq_some_iff.mp hn)
    · obtain ⟨a, ha, rfl⟩ := Option.map_eq_some_iff.mp h
      obtain ⟨n, hn, hna⟩ := Option.bind_eq_some_iff.mp ha
      cases hna
      exact .minus (natural?_eq_some_iff.mp hn)
    · obtain ⟨n, hn, rfl⟩ := Option.map_eq_some_iff.mp h
      exact .plain (natural?_eq_some_iff.mp hn)
  · intro h
    cases h with
    | @plus cs n hn =>
        show (natural? radix cs).map Int.ofNat = some (n : Int)
        rw [natural?_eq_some_iff.mpr hn]
        rfl
    | @minus cs n hn =>
        show ((natural? radix cs).bind fun n => some (n : Int)).map (fun n => -n) = some (-n : Int)
        rw [natural?_eq_some_iff.mpr hn]
        rfl
    | plain hn =>
        split
        · exact absurd hn (not_writesNat_sign (Or.inl rfl))
        · exact absurd hn (not_writesNat_sign (Or.inr rfl))
        · rw [natural?_eq_some_iff.mpr hn]
          rfl

/-- No decimal has a letter in it. -/
theorem signed?_prefixed {x : Char} (hx : x = 'x' ∨ x = 'X') :
    signed? 10 ('0' :: x :: cs) = none := by
  rcases hx with rfl | rfl <;> rfl

end Text

-- ================================================================= amounts

namespace Numeric

variable {text : String} {i : Int}

theorem ofInt?_eq_some_iff {j : Int} {fits : FitsExact j} :
    ofInt? i = some (.int j fits) ↔ i = j := by
  unfold ofInt?
  split
  case isTrue => simp
  case isFalse hnot =>
    simp only [reduceCtorEq, false_iff]
    rintro rfl
    exact hnot fits

/-- Read as an exact amount, a text within the range writes that integer. -/
theorem ofInt?_signed?_iff {radix : Nat} {cs : List Char} (fits : FitsExact i) :
    (Text.signed? radix cs).bind ofInt? = some (.int i fits) ↔ Text.WritesInt radix cs i := by
  rw [← Text.signed?_eq_some_iff, Option.bind_eq_some_iff]
  constructor
  · intro h
    obtain ⟨j, hj, heq⟩ := h
    rw [hj, ofInt?_eq_some_iff.mp heq]
  · intro h
    exact ⟨i, h, ofInt?_of_fits fits⟩

/-- A text that starts like a hexadecimal spells what its digits write. -/
theorem spells_iff_of_prefixed {x : Char} {digits : List Char}
    (hchars : Text.trimmed text.toList = '0' :: x :: digits) (hx : x = 'x' ∨ x = 'X') :
    Text.Spells text i ↔ Text.WritesInt 16 digits i := by
  constructor
  · intro h
    cases h with
    | decimal hw =>
        rw [hchars, ← Text.signed?_eq_some_iff, Text.signed?_prefixed hx] at hw
        cases hw
    | hexadecimal hchars' _ hw =>
        cases hchars.symm.trans hchars'
        exact hw
  · intro h
    exact .hexadecimal hchars hx h

/-- A text is read as an integer within 128 bits exactly when it spells it. -/
theorem parse?_eq_int_iff {fits : FitsExact i} :
    parse? text = some (.int i fits) ↔ Text.Spells text i := by
  unfold parse?
  split
  · next hchars =>
    simp only [reduceCtorEq, false_iff]
    intro h
    cases h with
    | decimal hw =>
        rw [hchars, ← Text.signed?_eq_some_iff] at hw
        cases hw
    | hexadecimal hchars' _ _ => cases hchars.symm.trans hchars'
  · next hchars => rw [spells_iff_of_prefixed hchars (Or.inl rfl), ofInt?_signed?_iff]
  · next hchars => rw [spells_iff_of_prefixed hchars (Or.inr rfl), ofInt?_signed?_iff]
  · next cs hnil hlower hupper =>
    have hspells : Text.Spells text i ↔ Text.WritesInt 10 (Text.trimmed text.toList) i := by
      constructor
      · intro h
        cases h with
        | decimal hw => exact hw
        | hexadecimal hchars hx _ =>
            rcases hx with rfl | rfl
            · exact absurd hchars (hlower _)
            · exact absurd hchars (hupper _)
      · exact .decimal
    rw [hspells, ← ofInt?_signed?_iff fits]
    cases (Text.signed? 10 (Text.trimmed text.toList)).bind ofInt? with
    | some amount => simp
    | none => simp

end Numeric

/-- The value holds the integer: as a number, or as a text that spells it. -/
inductive Json.HoldsInt : Json → Int → Prop
  | number {i : Int} (fits : Json.FitsWord i) : HoldsInt (.number (.int i fits)) i
  | text {s : String} {i : Int} : Text.Spells s i → HoldsInt (.string s) i

/-- A value is read as an integer within 128 bits exactly when it holds it. -/
theorem Numeric.ofJson?_eq_int_iff {v : Json} {i : Int} {fits : FitsExact i} :
    Numeric.ofJson? v = some (.int i fits) ↔ v.HoldsInt i := by
  constructor
  · intro h
    cases v with
    | number n =>
        cases n with
        | int j hj =>
            cases h
            exact .number hj
        | float x hx => cases h
    | string s => exact .text (parse?_eq_int_iff.mp h)
    | _ => cases h
  · intro h
    cases h with
    | number hj => rfl
    | text hs => exact parse?_eq_int_iff.mpr hs

end EventScript
