/-
The double nearest to a quotient. What reads as a given double is an interval around it, its
ends halfway to the neighbours; an end belongs to the double when its fraction is even. Bits
in ascending order have ascending worth, so the intervals of two doubles meet in no point, and
what is rounded is found by showing in which interval it lies.

Rounding itself is one division at a step that the size of the quotient gives. Its result is
within half a step, and that is the interval, except where the next exponent begins: there the
neighbour below is half a step away, but so near no quotient of that size comes.
-/
import EventScript.Decimal.Shortest
import EventScript.Proofs.Decimal.Rounding

namespace EventScript.Decimal.Binary64

-- ============================================================ the neighbours

/-- A fraction with the bit before it, some exponents on, is worth so many steps of that
exponent. The carry into the next exponent is covered. -/
theorem unitsOfBits_steps {s q : Nat} (hlow : s = 0 ∨ exponentBit ≤ q)
    (hhigh : q ≤ 2 * exponentBit) : unitsOfBits (s * exponentBit + q) = q * 2 ^ s := by
  unfold exponentBit at *
  unfold unitsOfBits exponentBit
  dsimp only
  rcases Nat.lt_or_ge q 0x10000000000000 with hsmall | hnormal
  · -- no bit before the fraction, so the exponent is the least
    obtain rfl : s = 0 := by omega
    rw [if_pos (by omega)]
    omega
  · rcases Nat.lt_or_eq_of_le hhigh with hinner | hcarry
    · have hexponent : (s * 0x10000000000000 + q) / 0x10000000000000 = s + 1 := by omega
      have hfraction : (s * 0x10000000000000 + q) % 0x10000000000000 = q - 0x10000000000000 := by
        omega
      rw [hexponent, hfraction, if_neg (Nat.succ_ne_zero s), Nat.shiftLeft_eq, Nat.add_sub_cancel,
        Nat.add_sub_cancel' hnormal]
    · have hexponent : (s * 0x10000000000000 + q) / 0x10000000000000 = s + 2 := by omega
      have hfraction : (s * 0x10000000000000 + q) % 0x10000000000000 = 0 := by omega
      rw [hexponent, hfraction, if_neg (Nat.succ_ne_zero _), Nat.shiftLeft_eq, hcarry]
      show 0x10000000000000 * 2 ^ (s + 1) = _
      rw [Nat.pow_succ']
      omega

/-- Every bit pattern is a fraction with the bit before it, some exponents on. -/
theorem exists_steps (m : Nat) :
    ∃ s q, m = s * exponentBit + q ∧ (s = 0 ∨ exponentBit ≤ q) ∧ q < 2 * exponentBit := by
  unfold exponentBit
  rcases Nat.lt_or_ge m 0x10000000000000 with hsmall | hnormal
  · exact ⟨0, m, by omega, Or.inl rfl, by omega⟩
  · refine ⟨m / 0x10000000000000 - 1, 0x10000000000000 + m % 0x10000000000000, ?_, Or.inr ?_, ?_⟩
      <;> omega

/-- The next bit pattern is worth more. -/
theorem unitsOfBits_lt_succ (m : Nat) : unitsOfBits m < unitsOfBits (m + 1) := by
  obtain ⟨s, q, rfl, hlow, hhigh⟩ := exists_steps m
  rw [Nat.add_assoc, unitsOfBits_steps hlow (Nat.le_of_lt hhigh),
    unitsOfBits_steps (hlow.imp_right Nat.le_succ_of_le) hhigh]
  exact Nat.mul_lt_mul_of_pos_right (Nat.lt_succ_self q) (Nat.two_pow_pos s)

/-- One fraction more is worth one step more at least. -/
theorem le_unitsOfBits_succ {s q : Nat} (hlow : s = 0 ∨ exponentBit ≤ q)
    (hhigh : q ≤ 2 * exponentBit) : (q + 1) * 2 ^ s ≤ unitsOfBits (s * exponentBit + q + 1) := by
  rcases Nat.lt_or_eq_of_le hhigh with hinner | hcarry
  · rw [Nat.add_assoc, unitsOfBits_steps (hlow.imp_right Nat.le_succ_of_le) hinner]
  · -- the carry: from here on the steps are twice as large
    have hbits : s * exponentBit + q + 1 = (s + 1) * exponentBit + (exponentBit + 1) := by
      rw [hcarry, Nat.succ_mul s]
      omega
    rw [hbits, unitsOfBits_steps (Or.inr (Nat.le_succ _)) (by unfold exponentBit; omega),
      Nat.pow_succ', ← Nat.mul_assoc, hcarry]
    exact Nat.mul_le_mul_right _ (by omega)

/-- Unless an exponent begins here, one fraction less is worth one step less. -/
theorem unitsOfBits_pred {s q : Nat} (hpos : 0 < q) (hlow : s = 0 ∨ exponentBit < q)
    (hhigh : q ≤ 2 * exponentBit) : unitsOfBits (s * exponentBit + q - 1) = (q - 1) * 2 ^ s := by
  rw [Nat.add_sub_assoc hpos, unitsOfBits_steps (hlow.imp_right Nat.le_sub_one_of_lt) (by omega)]

/-- More bits are worth more. -/
theorem unitsOfBits_strictMono : StrictMono unitsOfBits :=
  strictMono_nat_of_lt_succ unitsOfBits_lt_succ

-- ============================================================= the interval

/-- The bits are those of the double nearest to so many units, halves to the even fraction:
the quotient is at most halfway to either neighbour, and less where the fraction is odd. -/
structure Nearest (m num den : Nat) : Prop where
  low : (unitsOfBits (m - 1) + unitsOfBits m) * den ≤ 2 * num
  high : 2 * num ≤ (unitsOfBits m + unitsOfBits (m + 1)) * den
  even : m % 2 = 1 → (unitsOfBits (m - 1) + unitsOfBits m) * den ≠ 2 * num
    ∧ 2 * num ≠ (unitsOfBits m + unitsOfBits (m + 1)) * den

variable {m k num den : Nat}

/-- The interval in which the shortest digits are looked for is this one. -/
theorem nearest_iff_has :
    Nearest m num den ↔ (Shortest.Interval.ofBits m).has (2 * num, den) = true := by
  unfold Shortest.Interval.has Shortest.Interval.ofBits
  dsimp only
  constructor
  · intro h
    obtain ⟨hlow, hhigh, heven⟩ := h
    by_cases hodd : m % 2 = 1
    · have hopen := heven hodd
      simp only [hodd, Nat.one_ne_zero, decide_false, Bool.false_eq_true, if_false,
        Bool.and_eq_true, decide_eq_true_eq]
      omega
    · simp only [Nat.mod_two_ne_one.mp hodd, decide_true, if_true, Bool.and_eq_true,
        decide_eq_true_eq]
      exact ⟨hlow, hhigh⟩
  · intro h
    by_cases hodd : m % 2 = 1
    · simp only [hodd, Nat.one_ne_zero, decide_false, Bool.false_eq_true, if_false,
        Bool.and_eq_true, decide_eq_true_eq] at h
      exact ⟨by omega, by omega, fun _ => by omega⟩
    · simp only [Nat.mod_two_ne_one.mp hodd, decide_true, if_true, Bool.and_eq_true,
        decide_eq_true_eq] at h
      exact ⟨h.1, h.2, fun h => absurd h hodd⟩

/-- A double that is worth no more than the quotient is no greater than the nearest one. -/
theorem Nearest.le_of_le (h : Nearest m num den) (hden : 0 < den)
    (hk : unitsOfBits k * den ≤ num) : k ≤ m := by
  by_contra hlt
  have hnext : unitsOfBits (m + 1) ≤ unitsOfBits k :=
    unitsOfBits_strictMono.monotone (Nat.lt_of_not_le hlt)
  have hstep := unitsOfBits_lt_succ m
  have hmiddle : (unitsOfBits m + unitsOfBits (m + 1)) * den < (2 * unitsOfBits k) * den :=
    Nat.mul_lt_mul_of_pos_right (by omega) hden
  have hhigh := h.high
  rw [Nat.mul_assoc] at hmiddle
  omega

/-- A double that is worth no less is no smaller. -/
theorem Nearest.le_of_ge (h : Nearest m num den) (hden : 0 < den)
    (hk : num ≤ unitsOfBits k * den) : m ≤ k := by
  by_contra hlt
  have hlt : k < m := Nat.lt_of_not_le hlt
  have hbelow : unitsOfBits k ≤ unitsOfBits (m - 1) :=
    unitsOfBits_strictMono.monotone (Nat.le_sub_one_of_lt hlt)
  have hstep : unitsOfBits k < unitsOfBits m := unitsOfBits_strictMono hlt
  have hmiddle : (2 * unitsOfBits k) * den < (unitsOfBits (m - 1) + unitsOfBits m) * den :=
    Nat.mul_lt_mul_of_pos_right (by omega) hden
  have hlow := h.low
  rw [Nat.mul_assoc] at hmiddle
  omega

/-- No double is nearer to the quotient. -/
theorem Nearest.closest (h : Nearest m num den) (k : Nat) :
    ((unitsOfBits m * den : Nat) - num : Int).natAbs
      ≤ ((unitsOfBits k * den : Nat) - num : Int).natAbs := by
  have hlow := h.low
  have hhigh := h.high
  rw [Nat.add_mul] at hlow hhigh
  have hmono : ∀ {a b : Nat}, a ≤ b → unitsOfBits a * den ≤ unitsOfBits b * den :=
    fun hab => Nat.mul_le_mul_right den (unitsOfBits_strictMono.monotone hab)
  rcases Nat.lt_trichotomy k m with hlt | rfl | hgt
  · have hbelow := hmono (Nat.le_sub_one_of_lt hlt)
    have hstep := hmono (Nat.le_of_lt hlt)
    omega
  · exact Nat.le_refl _
  · have habove := hmono (show m + 1 ≤ k from hgt)
    have hstep := hmono (Nat.le_of_lt hgt)
    omega

/-- No double in between, so at most one is nearest. -/
theorem Nearest.unique (h : Nearest m num den) (h' : Nearest k num den) (hden : 0 < den) :
    m = k := by
  have hle : ∀ {m k : Nat}, Nearest m num den → Nearest k num den → m ≤ k := by
    intro m k h h'
    by_contra hlt
    have hlt : k < m := Nat.lt_of_not_le hlt
    -- the upper end of the one is at most the lower end of the other
    have hnext : unitsOfBits (k + 1) ≤ unitsOfBits m := unitsOfBits_strictMono.monotone hlt
    have hbelow : unitsOfBits k ≤ unitsOfBits (m - 1) :=
      unitsOfBits_strictMono.monotone (Nat.le_sub_one_of_lt hlt)
    have hends : (unitsOfBits k + unitsOfBits (k + 1)) * den
        ≤ (unitsOfBits (m - 1) + unitsOfBits m) * den :=
      Nat.mul_le_mul_right den (by omega)
    have hlow := h.low
    have hhigh := h'.high
    by_cases hodd : m % 2 = 1
    · exact (h.even hodd).1 (by omega)
    · by_cases hodd' : k % 2 = 1
      · exact (h'.even hodd').2 (by omega)
      · have hgap : unitsOfBits (k + 1) < unitsOfBits m :=
          unitsOfBits_strictMono (by omega : k + 1 < m)
        have hends' : (unitsOfBits k + unitsOfBits (k + 1)) * den
            < (unitsOfBits (m - 1) + unitsOfBits m) * den :=
          Nat.mul_lt_mul_of_pos_right (by omega) hden
        omega
  exact Nat.le_antisymm (hle h h') (hle h' h)

-- ============================================================= the rounding

/-- A quotient is rounded by half a step at most, and by less to an odd number. -/
theorem roundDiv_near (num : Nat) (hden : 0 < den) :
    2 * (roundDiv num den * den) ≤ 2 * num + den
      ∧ 2 * num ≤ 2 * (roundDiv num den * den) + den
      ∧ (roundDiv num den % 2 = 1 → 2 * (roundDiv num den * den) ≠ 2 * num + den
        ∧ 2 * num ≠ 2 * (roundDiv num den * den) + den) := by
  have hnum : num / den * den + num % den = num := Nat.div_add_mod' num den
  have hrest : num % den < den := Nat.mod_lt num hden
  have hnext : (num / den + 1) * den = num / den * den + den := Nat.succ_mul _ _
  unfold roundDiv
  dsimp only
  split
  · omega
  · split
    · omega
    · split <;> omega

/-- The bits of the double nearest to a quotient in units, before they stop at those of
infinity. -/
def ratioBits (num den : Nat) : Nat :=
  let s := (num / den).log2 - 52
  s * exponentBit + roundDiv num (den <<< s)

/-- A ratio is rounded in units and capped at infinity. -/
theorem ofRatio_eq (negative : Bool) (num den : Nat) :
    ofRatio negative num den
      = ofMagnitudeBits negative (min (ratioBits (num <<< unitShift) den) infinityBits) :=
  rfl

/-- The step is that of the exponent: less than two fractions of it, and one at least unless it
is the least step. -/
theorem quotient_bounds (num : Nat) (hden : 0 < den) :
    let s := (num / den).log2 - 52
    num < 2 * exponentBit * (den <<< s) ∧ (s = 0 ∨ exponentBit * (den <<< s) ≤ num) := by
  intro s
  have hbit : exponentBit = 2 ^ 52 := rfl
  have hstep : ∀ l, 2 ^ l * (den <<< s) = 2 ^ (s + l) * den := by
    intro l
    rw [Nat.shiftLeft_eq, Nat.mul_comm den, ← Nat.mul_assoc, ← Nat.pow_add, Nat.add_comm l]
  rw [hbit, ← Nat.pow_succ', hstep, hstep]
  constructor
  · rw [← Nat.div_lt_iff_lt_mul hden]
    calc num / den < 2 ^ ((num / den).log2 + 1) := Nat.lt_log2_self
      _ ≤ 2 ^ (s + (52 + 1)) := Nat.pow_le_pow_right Nat.two_pos (by omega)
  · by_cases hs : s = 0
    · exact Or.inl hs
    · right
      have hne : num / den ≠ 0 := by
        intro hzero
        exact hs (by simp [s, hzero])
      rw [← Nat.le_div_iff_mul_le hden]
      calc 2 ^ (s + 52) ≤ 2 ^ (num / den).log2 := Nat.pow_le_pow_right Nat.two_pos (by omega)
        _ ≤ num / den := Nat.log2_self_le hne

/-- So many steps of an exponent, over a denominator, are worth that many units. -/
theorem unitsOfBits_mul {s q : Nat} (hlow : s = 0 ∨ exponentBit ≤ q) (hhigh : q ≤ 2 * exponentBit)
    (den : Nat) : unitsOfBits (s * exponentBit + q) * den = q * (den <<< s) := by
  rw [unitsOfBits_steps hlow hhigh, Nat.shiftLeft_eq, Nat.mul_assoc, Nat.mul_comm (2 ^ s)]

/-- The neighbour below is a step away, or nothing below the double is rounded to it: there an
exponent begins, and the fraction is even. -/
theorem step_to_pred {s q : Nat} (hlow : s = 0 ∨ exponentBit ≤ q) (hhigh : q ≤ 2 * exponentBit)
    (hnum : s = 0 ∨ exponentBit * (den <<< s) ≤ num) :
    unitsOfBits (s * exponentBit + q - 1) * den + den <<< s = q * (den <<< s)
      ∨ q % 2 = 0 ∧ q * (den <<< s) ≤ num
        ∧ unitsOfBits (s * exponentBit + q - 1) * den ≤ q * (den <<< s) := by
  by_cases hinner : 0 < q ∧ (s = 0 ∨ exponentBit < q)
  · left
    rw [unitsOfBits_pred hinner.1 hinner.2 hhigh, Nat.shiftLeft_eq, Nat.mul_assoc,
      Nat.mul_comm (2 ^ s), ← Nat.succ_mul, Nat.succ_eq_add_one, Nat.sub_add_cancel hinner.1]
  · right
    have hq : q = 0 ∨ q = exponentBit ∧ exponentBit * (den <<< s) ≤ num := by omega
    refine ⟨?_, ?_, ?_⟩
    · rcases hq with rfl | ⟨rfl, -⟩ <;> rfl
    · rcases hq with rfl | ⟨rfl, hle⟩
      · rw [Nat.zero_mul]
        exact Nat.zero_le num
      · exact hle
    · rw [← unitsOfBits_mul hlow hhigh]
      exact Nat.mul_le_mul_right den (unitsOfBits_strictMono.monotone (Nat.sub_le _ _))

/-- What is rounded lies in the interval of the bits it is rounded to. -/
theorem nearest_ratioBits (num : Nat) (hden : 0 < den) : Nearest (ratioBits num den) num den := by
  obtain ⟨hbelow, habove⟩ := quotient_bounds num hden
  unfold ratioBits
  dsimp only
  generalize (num / den).log2 - 52 = s at hbelow habove ⊢
  have hstep : 0 < den <<< s := by
    rw [Nat.shiftLeft_eq]
    exact Nat.mul_pos hden (Nat.two_pow_pos s)
  obtain ⟨hdown, hup, heven⟩ := roundDiv_near num hstep
  have hle := le_roundDiv num (den <<< s)
  have hge := roundDiv_le num (den <<< s)
  have hquotient := (Nat.div_lt_iff_lt_mul hstep).mpr hbelow
  have hquotient' := habove.imp_right (Nat.le_div_iff_mul_le hstep).mpr
  generalize roundDiv num (den <<< s) = q at hdown hup heven hle hge ⊢
  -- the quotient fills the significand, or goes one past its end
  have hhigh : q ≤ 2 * exponentBit := by omega
  have hlow : s = 0 ∨ exponentBit ≤ q := by omega
  -- the bits are even exactly where the quotient is
  have hodd : (s * exponentBit + q) % 2 = q % 2 := by
    unfold exponentBit
    omega
  have hworth := unitsOfBits_mul hlow hhigh den
  have hbefore := step_to_pred hlow hhigh habove
  have hnext : q * (den <<< s) + den <<< s ≤ unitsOfBits (s * exponentBit + q + 1) * den := by
    calc q * (den <<< s) + den <<< s = (q + 1) * 2 ^ s * den := by
          rw [← Nat.succ_mul, Nat.shiftLeft_eq, Nat.mul_assoc, Nat.mul_comm (2 ^ s)]
      _ ≤ unitsOfBits (s * exponentBit + q + 1) * den :=
          Nat.mul_le_mul_right den (le_unitsOfBits_succ hlow hhigh)
  refine ⟨?_, ?_, fun h => ?_⟩
  · rw [Nat.add_mul, hworth]
    omega
  · rw [Nat.add_mul, hworth]
    omega
  · rw [Nat.add_mul, Nat.add_mul, hworth]
    have hopen := heven (hodd ▸ h)
    omega

variable {negative : Bool}

/-- What lies in the interval of a finite double is rounded to it. -/
theorem ofRatio_of_nearest (h : Nearest m (num <<< unitShift) den) (hden : 0 < den)
    (hfinite : m < infinityBits) : ofRatio negative num den = ofMagnitudeBits negative m := by
  rw [ofRatio_eq, (nearest_ratioBits _ hden).unique h hden, Nat.min_eq_left (Nat.le_of_lt hfinite)]

end EventScript.Decimal.Binary64
