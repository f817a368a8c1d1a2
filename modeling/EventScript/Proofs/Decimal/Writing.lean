/-
The text of a double is read as that double. Whatever way the digits are set out, behind zeros,
before zeros, with the point among them or with an exponent, the text is digits with a point or
an exponent, and the decimal it writes is that of the digits; the zeros count in its exponent.

Such a text is told from that of an integer by its point or its exponent, and there is nothing
in it to trim.
-/
import EventScript.Decimal.Literal
import EventScript.Proofs.Decimal.Order
import EventScript.Proofs.Decimal.Shortest
import EventScript.Proofs.Numeric.Radix

namespace EventScript.Decimal

open Binary64 (infinityBits ofMagnitudeBits)
open Text (natural? signed?)

variable {d : Digits} {m : Nat} {text : List Char}

-- ============================================================= the form

/-- The text is a decimal with a point or an exponent, and what it writes is, with either sign,
the double with these bits. -/
inductive Writes (m : Nat) : List Char → Prop
  | parts {whole fraction digits exponent : List Char} {n : Nat} {k : Int} :
      whole ≠ [] → (∀ c ∈ whole, c.isDigit = true) → WritesFraction fraction digits →
      natural? 10 (whole ++ digits) = some n → WritesExponent exponent k →
      fraction ++ exponent ≠ [] →
      (∀ negative, Binary64.ofDecimal negative n (k - digits.length) = ofMagnitudeBits negative m) →
      Writes m (whole ++ (fraction ++ exponent))

/-- It is read as this double. -/
theorem Writes.literal?_eq (h : Writes m text) (negative : Bool) :
    literal? ((if negative then ['-'] else []) ++ text) = some (ofMagnitudeBits negative m) := by
  cases h with
  | parts hne hwhole hfraction hn hexponent _ hvalue =>
      rw [literal?_of_writes negative hwhole hne hfraction hn hexponent, hvalue]

/-- Its characters are digits, signs, the point and the mark of the exponent. -/
theorem Writes.mem (h : Writes m text) {c : Char} (hc : c ∈ text) :
    c.isDigit = true ∨ c = '.' ∨ c = 'e' ∨ c = '+' ∨ c = '-' := by
  cases h with
  | parts _ hwhole hfraction _ hexponent _ _ =>
      rcases List.mem_append.mp hc with hc | hc
      · exact Or.inl (hwhole c hc)
      rcases List.mem_append.mp hc with hc | hc
      · cases hfraction with
        | nothing => cases hc
        | point hdigits =>
            rcases List.mem_cons.mp hc with rfl | hc
            · exact Or.inr (Or.inl rfl)
            · exact Or.inl (hdigits c hc)
      · cases hexponent with
        | nothing => cases hc
        | numeral hk =>
            rcases List.mem_cons.mp hc with rfl | hc
            · exact Or.inr (Or.inr (Or.inl rfl))
            · rcases Text.isDigit_or_sign_of_signed? hk hc with hdigit | hsign
              · exact Or.inl hdigit
              · exact Or.inr (Or.inr (Or.inr hsign))

/-- There is a point or an exponent in it. -/
theorem Writes.exists_mark (h : Writes m text) : ∃ c ∈ text, c = '.' ∨ c = 'e' := by
  cases h with
  | parts _ _ hfraction _ hexponent hmark _ =>
      cases hfraction with
      | point _ => exact ⟨'.', by simp, Or.inl rfl⟩
      | nothing =>
          cases hexponent with
          | nothing => exact absurd rfl hmark
          | numeral _ => exact ⟨'e', by simp, Or.inr rfl⟩

-- ============================================================ the digits

/-- What is left out behind the digits is zeros. -/
theorem Digits.exists_zeros (d : Digits) :
    ∃ j, Nat.toDigits 10 d.value = d.chars ++ List.replicate j '0' := by
  have hsplit := List.takeWhile_append_dropWhile (p := (· == '0'))
    (l := (Nat.toDigits 10 d.value).reverse)
  refine ⟨((Nat.toDigits 10 d.value).reverse.takeWhile (· == '0')).length, ?_⟩
  have hzeros : ∀ c ∈ (Nat.toDigits 10 d.value).reverse.takeWhile (· == '0'), c = '0' := by
    intro c hc
    exact beq_iff_eq.mp (List.all_eq_true.mp List.all_takeWhile c hc)
  unfold chars
  rw [← List.reverse_replicate, ← List.eq_replicate_of_mem hzeros, ← List.reverse_append, hsplit,
    List.reverse_reverse]

/-- The number that the digits write without the zeros behind them. -/
def Digits.significand (d : Digits) : Nat := Nat.ofDigitChars 10 d.chars 0

/-- The characters of digits are digits. -/
theorem Digits.isDigit_of_mem_chars {c : Char} (hc : c ∈ d.chars) : c.isDigit = true := by
  obtain ⟨j, hj⟩ := d.exists_zeros
  exact Text.isDigit_of_mem_digits (n := d.value) (by rw [hj]; exact List.mem_append_left _ hc)

/-- As many digits as counted. -/
theorem Digits.ReadBack.length_digits (h : d.ReadBack m) :
    (Nat.toDigits 10 d.value).length = d.count := by
  have hle := (Nat.length_toDigits_le_iff (b := 10) (by decide) h.some_count).mpr h.high
  have hsome : 0 < (Nat.toDigits 10 d.value).length := Nat.length_toDigits_pos
  by_cases hone : d.count = 1
  · omega
  · have hfewer := Nat.length_toDigits_le_iff (b := 10) (n := d.value) (by decide)
      (show 0 < d.count - 1 by have := h.some_count; omega)
    have hlow := h.low
    omega

/-- Without the zeros behind them the digits read back just as well. -/
theorem Digits.ReadBack.nearest_significand (h : d.ReadBack m) :
    NearestTo m (decimalUnits d.significand (d.point - d.chars.length)) := by
  obtain ⟨j, hj⟩ := d.exists_zeros
  have hvalue : d.value = d.significand * 10 ^ j := by
    rw [← Nat.ofDigitChars_toDigits (b := 10) (n := d.value) (by decide) le_rfl, hj,
      Nat.ofDigitChars_append, Nat.ofDigitChars_replicate_zero, Nat.mul_comm]
    rfl
  have hcount : d.chars.length + j = d.count := by
    rw [← h.length_digits, hj, List.length_append, List.length_replicate]
  have hnearest := h.nearest
  rw [hvalue, decimalUnits_mul_pow] at hnearest
  rwa [show d.point - d.chars.length = d.point - d.count + j by omega]

/-- There is a digit other than zero. -/
theorem Digits.ReadBack.chars_ne_nil (h : d.ReadBack m) : d.chars ≠ [] := by
  obtain ⟨j, hj⟩ := d.exists_zeros
  intro hnil
  have hvalue := Nat.ofDigitChars_toDigits (b := 10) (n := d.value) (by decide) le_rfl
  rw [hj, hnil, List.nil_append, Nat.ofDigitChars_replicate_zero, Nat.mul_zero] at hvalue
  have hlow := h.low
  have hpos : 0 < 10 ^ (d.count - 1) := Nat.pow_pos (by decide)
  omega

-- ============================================================ the layouts

theorem isDigit_of_mem_replicate {n : Nat} {c : Char} (hc : c ∈ List.replicate n '0') :
    c.isDigit = true := by
  rw [List.eq_of_mem_replicate hc]
  rfl

variable {whole fraction digits exponent : List Char} {n j : Nat} {k : Int}

/-- A text writes a double when its digits are those of the double with zeros around them, and
its exponent makes up for the zeros and for the fraction. -/
theorem Digits.ReadBack.writes (h : d.ReadBack m) (hm : 0 < m) (hfinite : m < infinityBits)
    {i : Nat} (hdigits : whole ++ digits = List.replicate i '0' ++ d.chars ++ List.replicate j '0')
    (hne : whole ≠ []) (hfraction : WritesFraction fraction digits)
    (hexponent : WritesExponent exponent k) (hmark : fraction ++ exponent ≠ [])
    (hpoint : k - digits.length + j = d.point - d.chars.length) :
    Writes m (whole ++ (fraction ++ exponent)) := by
  have hall : ∀ c ∈ whole ++ digits, c.isDigit = true := by
    intro c hc
    rw [hdigits] at hc
    rcases List.mem_append.mp hc with hc | hc
    · rcases List.mem_append.mp hc with hc | hc
      · exact isDigit_of_mem_replicate hc
      · exact Digits.isDigit_of_mem_chars hc
    · exact isDigit_of_mem_replicate hc
  have hread := Text.natural?_of_isDigit hall (List.append_ne_nil_of_left_ne_nil hne _)
  rw [hdigits, Nat.ofDigitChars_append, Nat.ofDigitChars_append, Nat.ofDigitChars_replicate_zero,
    Nat.ofDigitChars_replicate_zero, Nat.mul_zero, Nat.mul_comm, ← hdigits] at hread
  refine .parts hne (fun c hc => hall c (List.mem_append_left _ hc)) hfraction hread hexponent
    hmark fun negative => ofDecimal_of_nearestTo hm hfinite ?_
  have hnearest := h.nearest_significand
  rwa [← hpoint, ← decimalUnits_mul_pow] at hnearest

/-- Positionally, a number without fraction behind which a point and a zero follow. -/
theorem writes_positional {layout : Layout} (hlayout : layout.wholeSuffix = ".0")
    (h : d.ReadBack m) (hm : 0 < m) (hfinite : m < infinityBits) :
    Writes m (d.positional layout).toList := by
  have hsome : 0 < d.chars.length := List.length_pos_iff.mpr h.chars_ne_nil
  have hchars : ∀ c ∈ d.chars, c.isDigit = true := fun _ => Digits.isDigit_of_mem_chars
  rw [Digits.toList_positional, hlayout]
  split
  case isTrue hpoint =>
    -- zeros before the digits, all behind the point
    have hbehind : ∀ c ∈ List.replicate (-d.point).toNat '0' ++ d.chars, c.isDigit = true :=
      List.forall_mem_append.mpr ⟨fun _ => isDigit_of_mem_replicate, hchars⟩
    have hdigits : ['0'] ++ (List.replicate (-d.point).toNat '0' ++ d.chars)
        = List.replicate ((-d.point).toNat + 1) '0' ++ d.chars ++ List.replicate 0 '0' := by
      rw [List.replicate_succ, List.replicate_zero, List.append_nil]
      rfl
    have hwrites := h.writes hm hfinite hdigits (List.cons_ne_nil _ _) (.point hbehind) .nothing
      (List.cons_ne_nil _ _) (by simp; omega)
    rwa [List.append_nil] at hwrites
  case isFalse hpoint =>
    split
    case isTrue hwhole =>
      -- zeros behind the digits, one of them behind the point
      have hdigits : d.chars ++ List.replicate (d.point.toNat - d.chars.length) '0' ++ ['0']
          = List.replicate 0 '0' ++ d.chars
            ++ List.replicate (d.point.toNat - d.chars.length + 1) '0' := by
        rw [List.replicate_succ', List.replicate_zero, List.nil_append, List.append_assoc]
      have hwrites := h.writes hm hfinite hdigits
        (List.append_ne_nil_of_left_ne_nil h.chars_ne_nil _)
        (.point fun _ => isDigit_of_mem_replicate (n := 1)) .nothing (List.cons_ne_nil _ _)
        (by simp; omega)
      rwa [List.append_nil] at hwrites
    case isFalse hwhole =>
      -- the point among the digits
      have hdigits : d.chars.take d.point.toNat ++ d.chars.drop d.point.toNat
          = List.replicate 0 '0' ++ d.chars ++ List.replicate 0 '0' := by
        simp
      have hwrites := h.writes hm hfinite hdigits
        (List.ne_nil_of_length_pos (by rw [List.length_take]; omega))
        (.point fun c hc => hchars c (List.mem_of_mem_drop hc)) .nothing
        (List.cons_ne_nil _ _) (by simp; omega)
      rwa [List.append_nil] at hwrites

/-- With one digit before the point and an exponent. -/
theorem writes_scientific (h : d.ReadBack m) (hm : 0 < m) (hfinite : m < infinityBits) :
    Writes m d.scientific.toList := by
  have hchars : ∀ c ∈ d.chars, c.isDigit = true := fun _ => Digits.isDigit_of_mem_chars
  have hexponent : WritesExponent ('e' :: (if d.point - 1 < 0 then '-' else '+')
      :: Nat.toDigits 10 (d.point - 1).natAbs) (d.point - 1) := by
    refine .numeral ?_
    split
    · show (natural? 10 (Nat.toDigits 10 (d.point - 1).natAbs)).map (fun n => -(n : Int)) = _
      rw [Text.natural?_toDigits]
      exact congrArg some (show -((d.point - 1).natAbs : Int) = d.point - 1 by omega)
    · show (natural? 10 (Nat.toDigits 10 (d.point - 1).natAbs)).map Int.ofNat = _
      rw [Text.natural?_toDigits]
      exact congrArg some (show ((d.point - 1).natAbs : Int) = d.point - 1 by omega)
  rw [Digits.toList_scientific]
  split
  · next hnil => exact absurd hnil h.chars_ne_nil
  · next c hone =>
    have hdigits : [c] ++ [] = List.replicate 0 '0' ++ d.chars ++ List.replicate 0 '0' := by
      simp [hone]
    exact h.writes hm hfinite hdigits (List.cons_ne_nil _ _) .nothing hexponent
      (List.cons_ne_nil _ _) (by simp [hone])
  · next c rest _ hmore =>
    have hdigits : [c] ++ rest = List.replicate 0 '0' ++ d.chars ++ List.replicate 0 '0' := by
      simp [hmore]
    exact h.writes hm hfinite hdigits (List.cons_ne_nil _ _)
      (.point fun d hd => hchars d (by rw [hmore]; exact List.mem_cons_of_mem _ hd)) hexponent
      (List.cons_ne_nil _ _) (by simp [hmore]; omega)

/-- Zero is written with a zero behind the point. -/
theorem writes_zero : Writes 0 ['0', '.', '0'] := by
  have hdigit : ∀ c ∈ ['0'], c.isDigit = true := fun _ => isDigit_of_mem_replicate (n := 1)
  exact .parts (List.cons_ne_nil _ _) hdigit (.point hdigit) rfl .nothing (List.cons_ne_nil _ _)
    fun _ => rfl

/-- The text of a double in a document is its sign and what writes its magnitude. -/
theorem exists_writes_document {x : Binary64} (hfinite : x.isFinite = true) :
    ∃ text, (Layout.document.write x).toList = (if x.isNegative then ['-'] else []) ++ text
      ∧ Writes x.magnitudeBits text := by
  have hbits : x.magnitudeBits < infinityBits := decide_eq_true_iff.mp hfinite
  have hsign : (if x.isNegative then "-" else "").toList = if x.isNegative then ['-'] else [] := by
    split <;> rfl
  unfold Layout.write
  simp only [Binary64.isNaN_of_isFinite hfinite, hfinite, Bool.false_eq_true, Bool.not_true,
    if_false]
  split
  case isTrue hzero =>
    refine ⟨['0', '.', '0'], ?_, hzero ▸ writes_zero⟩
    rw [String.toList_append, String.toList_append, hsign, List.append_assoc]
    rfl
  case isFalse hzero =>
    have hpos : 0 < x.magnitudeBits := Nat.pos_of_ne_zero hzero
    have hread := shortest_readBack hpos
    rw [String.toList_append, hsign]
    refine ⟨_, rfl, ?_⟩
    split
    · exact writes_positional rfl hread hpos hbits
    · exact writes_scientific hread hpos hbits

end EventScript.Decimal
