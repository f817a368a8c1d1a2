/-
What is kept of an amount gives the amount back. An integer is kept as a number or as its text, a
double as a number; read from the value, or from the text of the value, the amount is of the same
kind and worth the same. The text of a double is never that of an integer, as it has a point or an
exponent, however whole the double is.

So nothing is lost between the instructions that turn text into numbers and those that read them:
what they put out is read as what they computed.
-/
import EventScript.Instruction.Calculation
import EventScript.Instruction.TextTransform
import EventScript.Proofs.Decimal.Writing
import EventScript.Proofs.Numeric.Order

namespace EventScript.Numeric

open Decimal (Binary64 Writes)
open Instruction (Calculation TextTransform)

variable {n : Numeric} {v : Json} {s : String} {x : Binary64}

-- =========================================================== the doubles

/-- The text of a double spells the double. -/
theorem parse?_write (h : x.isFinite = true) :
    parse? (Decimal.Layout.document.write x) = some (.float x) := by
  obtain ⟨text, htext, hwrites⟩ := Decimal.exists_writes_document h
  have hread := hwrites.literal?_eq x.isNegative
  rw [Binary64.ofMagnitudeBits_magnitudeBits, ← htext] at hread
  have hmem : ∀ c ∈ (Decimal.Layout.document.write x).toList,
      c.isDigit = true ∨ c = '.' ∨ c = 'e' ∨ c = '+' ∨ c = '-' := by
    intro c hc
    rw [htext] at hc
    rcases List.mem_append.mp hc with hsign | hc
    · split at hsign
      case isTrue => exact Or.inr (Or.inr (Or.inr (Or.inr (List.mem_singleton.mp hsign))))
      case isFalse => cases hsign
    · exact hwrites.mem hc
  have hblank : ∀ c ∈ (Decimal.Layout.document.write x).toList, Text.isBlank c = false := by
    intro c hc
    rcases hmem c hc with hdigit | rfl | rfl | rfl | rfl
    · exact Text.not_blank_of_isDigit hdigit
    all_goals rfl
  -- the point or the exponent keeps the text from being read as an integer
  have hint : Text.signed? 10 (Decimal.Layout.document.write x).toList = none := by
    obtain ⟨c, hc, hmark⟩ := hwrites.exists_mark
    rw [Option.eq_none_iff_forall_ne_some]
    intro i hi
    have hdigit := Text.isDigit_or_sign_of_signed? hi (c := c)
      (by rw [htext]; exact List.mem_append_right _ hc)
    rcases hmark with rfl | rfl <;> exact absurd hdigit (by decide)
  unfold parse?
  rw [Text.trimmed_of_not_blank hblank]
  generalize (Decimal.Layout.document.write x).toList = cs at *
  split
  · cases hread
  · exact absurd (hmem 'x' (by simp)) (by decide)
  · exact absurd (hmem 'X' (by simp)) (by decide)
  · rw [hint, hread, Option.filter_some, if_pos h]
    rfl

-- whole as it is, a double of this size is told from an integer by its exponent
example : Decimal.Layout.document.write ⟨0x4341C37937E08000⟩ = "1e+16" := by decide +kernel

-- ============================================================ the values

/-- The value holds the amount, and so does its text. -/
structure Keeps (v : Json) (n : Numeric) : Prop where
  value : ofJson? v = some n
  text : parse? v.display = some n

/-- The value holds an integer. -/
def KeepsInt (v : Json) (i : Int) : Prop := ∃ fits : FitsExact i, Keeps v (.int i fits)

theorem keepsInt_toString {i : Int} (fits : FitsExact i) : KeepsInt (.string (toString i)) i :=
  ⟨fits, parse?_toString fits, parse?_toString fits⟩

/-- The value of an integer keeps it, be it a number or a text. -/
theorem keepsInt_ofInt {i : Int} (fits : FitsExact i) : KeepsInt (Json.ofInt i) i := by
  refine ⟨fits, ofJson?_ofInt fits, ?_⟩
  unfold Json.ofInt
  split
  · next m hm =>
    unfold Json.Number.ofInt? at hm
    split at hm
    case isTrue =>
      cases hm
      exact parse?_toString fits
    case isFalse => cases hm
  · exact parse?_toString fits

/-- An amount that is a number is kept. -/
theorem exists_keeps (h : n.IsFinite) : ∃ v, n.toJson? = some v ∧ Keeps v n := by
  cases n with
  | int i fits =>
      obtain ⟨_, hkeeps⟩ := keepsInt_ofInt fits
      exact ⟨_, rfl, hkeeps⟩
  | float x =>
      have hfinite : x.isFinite = true := h
      have hvalue : toJson? (.float x) = some (.number (.float x hfinite)) := by
        unfold toJson? Json.Number.ofBinary64?
        dsimp only
        rw [dif_pos hfinite]
        rfl
      exact ⟨_, hvalue, rfl, parse?_write hfinite⟩

/-- An integer part is within 128 bits or is not taken. -/
theorem fitsExact_of_truncate? {k : Int} (h : n.truncate? = some k) : FitsExact k := by
  cases n with
  | int i fits =>
      cases h
      exact fits
  | float x =>
      unfold truncate? at h
      dsimp only at h
      split at h
      case isTrue hsmall =>
        cases h
        rw [Bool.and_eq_true, decide_eq_true_iff] at hsmall
        have hwhole : x.magnitude >>> Binary64.unitShift < 2 ^ 127 := by
          rw [Nat.shiftRight_eq_div_pow, Nat.div_lt_iff_lt_mul (Nat.two_pow_pos _), ← Nat.pow_add,
            ← Nat.one_shiftLeft]
          exact hsmall.2
        unfold Binary64.truncate FitsExact
        dsimp only
        generalize x.magnitude >>> Binary64.unitShift = whole at hwhole
        split <;> omega
      case isFalse => cases h

-- ====================================================== the instructions

/-- Written in a form that keeps integers, the integer part of what a text spells is kept. -/
theorem rel_keepsInt {write : Int → Json} (hwrite : ∀ {k}, FitsExact k → KeepsInt (write k) k)
    (o : Option Numeric) :
    Option.Rel KeepsInt ((o.bind truncate?).map write) (o.bind truncate?) := by
  cases ho : o.bind truncate? with
  | none => exact .none
  | some k =>
      obtain ⟨n, -, hn⟩ := Option.bind_eq_some_iff.mp ho
      exact .some (hwrite (fitsExact_of_truncate? hn))

/-- The integer part that a calculation yields, or that it has none. -/
theorem toOption_result_bigint {i : Calculation} {g : Globals} (hop : i.operation = .bigint)
    (hv : g.getPath? i.variableName = some v) :
    (i.result g).toOption.map Prod.fst
      = ((ofJson? v).bind truncate?).map fun k => .string (toString k) := by
  unfold Calculation.result
  rw [hv]
  dsimp only
  cases ofJson? v with
  | none => rfl
  | some input =>
      unfold Calculation.compute
      dsimp only
      rw [if_pos hop, Option.bind_some]
      cases input.truncate? <;> rfl

/-- Every amount that is a number is kept. So what a text is turned into holds the amount that the
text spells, or its integer part in each of the three ways to ask for it; and where the text spells
none, or its integer part is out of range, nothing is put out. -/
theorem amounts_survive_variables :
    (∀ n : Numeric, n.IsFinite → ∃ v, n.toJson? = some v ∧ Keeps v n)
      ∧ ∀ (s : String) (separator : Option String),
        Option.Rel Keeps (TextTransform.apply .number separator s) (parse? s)
          ∧ Option.Rel KeepsInt (TextTransform.apply .int separator s)
            ((parse? s).bind truncate?)
          ∧ Option.Rel KeepsInt (TextTransform.apply .bigint separator s)
            ((parse? s).bind truncate?)
          ∧ ∀ (i : Calculation) (g : Globals), i.operation = .bigint →
            g.getPath? i.variableName = some (.string s) →
            Option.Rel KeepsInt ((i.result g).toOption.map Prod.fst)
              ((parse? s).bind truncate?) := by
  refine ⟨fun n => exists_keeps, fun s separator => ⟨?_, ?_, ?_, ?_⟩⟩
  · show Option.Rel Keeps ((parse? s).bind toJson?) (parse? s)
    cases hn : parse? s with
    | none => exact .none
    | some n =>
        obtain ⟨v, hv, hkeeps⟩ := exists_keeps (isFinite_of_parse? hn)
        rw [Option.bind_some, hv]
        exact .some hkeeps
  · exact rel_keepsInt keepsInt_ofInt (parse? s)
  · exact rel_keepsInt keepsInt_toString (parse? s)
  · intro i g hop hv
    rw [toOption_result_bigint hop hv]
    exact rel_keepsInt keepsInt_toString (parse? s)

/-- A tenth is kept, and a decimal with an exponent keeps its integer part. -/
theorem tenth_and_exponent_survive :
    (∃ v, toJson? (.float ⟨0x3FB999999999999A⟩) = some v ∧ Keeps v (.float ⟨0x3FB999999999999A⟩))
      ∧ ∃ v, ((Calculation.result ⟨"amount", .bigint, none, none, "whole"⟩
          ⟨[("amount", .string "1.27e+1")]⟩).toOption.map Prod.fst) = some v ∧ KeepsInt v 12 := by
  obtain ⟨hdouble, htext⟩ := amounts_survive_variables
  obtain ⟨-, -, -, hcalculation⟩ := htext "1.27e+1" none
  have hrel := hcalculation ⟨"amount", .bigint, none, none, "whole"⟩
    ⟨[("amount", .string "1.27e+1")]⟩ rfl rfl
  have hwhole : (parse? "1.27e+1").bind truncate? = some 12 := by decide +kernel
  rw [hwhole] at hrel
  refine ⟨hdouble _ (by decide), ?_⟩
  generalize ((Calculation.result _ _).toOption.map Prod.fst) = output at hrel ⊢
  cases hrel with
  | some h => exact ⟨_, rfl, h⟩

end EventScript.Numeric
