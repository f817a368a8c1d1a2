/-
Days and dates are one and the same. The calendar repeats itself every 400 years, an era;
counted from a March, an era is three centuries of 36524 days and one with a day more, a
century is cycles of 1461 days, the last of them perhaps a day short, and a cycle is three
years of 365 days and one with a day more. The day of every date is thus found again, and the
date of every day is one that the calendar has.
-/
import EventScript.Timestamp

namespace EventScript.Timestamp

-- ============================================================= the cycles

/-- Day `e` of an era comes `c` centuries, `q` cycles of four years, `k` years and `r` days
after its start. -/
structure Cycles (e c q k r : Nat) : Prop where
  centuries : c ≤ 3
  leaps : q ≤ 24
  years : k ≤ 3
  days : r ≤ 365
  /-- Only the last year of a cycle has a day more, and the last cycle of a century that only
  in the last century. -/
  last : r = 365 → k = 3 ∧ (q = 24 → c = 3)
  eq : e = 36524 * c + 1461 * q + 365 * k + r

/-- Every day of an era has its place in the cycles. -/
theorem exists_cycles {e : Nat} (h : e < 146097) : ∃ c q k r, Cycles e c q k r := by
  have hcentury : ∃ c e', c ≤ 3 ∧ e = 36524 * c + e' ∧ (e' < 36524 ∨ c = 3 ∧ e' = 36524) := by
    by_cases hlast : e = 146096
    · exact ⟨3, 36524, by omega, by omega, by omega⟩
    · exact ⟨e / 36524, e % 36524, by omega, by omega, by omega⟩
  obtain ⟨c, e', hc, rfl, he'⟩ := hcentury
  have hyear : ∃ k r, k ≤ 3 ∧ e' % 1461 = 365 * k + r ∧ r ≤ 365 ∧ (r = 365 → k = 3) := by
    by_cases hlast : e' % 1461 = 1460
    · exact ⟨3, 365, by omega, by omega, by omega, by omega⟩
    · exact ⟨e' % 1461 / 365, e' % 1461 % 365, by omega, by omega, by omega, by omega⟩
  obtain ⟨k, r, hk, hr, hr', hlast⟩ := hyear
  refine ⟨c, e' / 1461, k, r, hc, by omega, hk, hr', ?_, by omega⟩
  intro h
  have hk3 := hlast h
  exact ⟨hk3, by omega⟩

namespace Cycles

variable {e c q k r : Nat} (h : Cycles e c q k r)

include h

/-- The year of the era, from its day. A day is counted off for every leap day before; that it
is counted off a little early in a cycle does not carry over into another year. -/
theorem year_eq : (e - e / 1460 + e / 36524 - e / 146096) / 365 = 100 * c + 4 * q + k := by
  obtain ⟨hc, hq, hk, hr, hlast, rfl⟩ := h
  have hdays : ∀ early final, early ≤ r →
      36524 * c + 1461 * q + 365 * k + r - (25 * c + q + early) + (c + final) - final
        = 365 * (100 * c + 4 * q + k) + (r - early) := by omega
  obtain ⟨early, hle, hlt, hleap⟩ : ∃ early, early ≤ r ∧ r - early < 365
      ∧ (36524 * c + 1461 * q + 365 * k + r) / 1460 = 25 * c + q + early := by
    by_cases hlate : 1460 ≤ 24 * c + q + 365 * k + r
    · exact ⟨1, by omega, by omega, by omega⟩
    · exact ⟨0, by omega, by omega, by omega⟩
  obtain ⟨final, hcentury, hera⟩ : ∃ final,
      (36524 * c + 1461 * q + 365 * k + r) / 36524 = c + final
        ∧ (36524 * c + 1461 * q + 365 * k + r) / 146096 = final := by
    by_cases hfinal : c = 3 ∧ q = 24 ∧ r = 365
    · exact ⟨1, by omega, by omega⟩
    · exact ⟨0, by omega, by omega⟩
  rw [hleap, hcentury, hera, hdays early final hle, Nat.mul_add_div (by decide),
    Nat.div_eq_of_lt hlt, Nat.add_zero]

/-- The day of the year, counted from the first of March. -/
theorem day_eq :
    e - (365 * (100 * c + 4 * q + k) + (100 * c + 4 * q + k) / 4 - (100 * c + 4 * q + k) / 100)
      = r := by
  obtain ⟨hc, hq, hk, hr, hlast, rfl⟩ := h
  have hfour : (100 * c + 4 * q + k) / 4 = 25 * c + q := by omega
  have hhundred : (100 * c + 4 * q + k) / 100 = c := by omega
  omega

end Cycles

-- ================================================================ months

/-- The month of a day of the year, both counted from March. -/
def marchMonth (day : Nat) : Nat := (5 * day + 2) / 153

/-- The days of a year from March before a month. -/
def daysBefore (month : Nat) : Nat := (153 * month + 2) / 5

/-- A day of the year is in its month, and the month has that many days. -/
theorem marchMonth_spec {r : Nat} (h : r ≤ 365) :
    marchMonth r ≤ 11 ∧ daysBefore (marchMonth r) ≤ r ∧ r - daysBefore (marchMonth r) < 31
      ∧ (marchMonth r ∈ [1, 3, 6, 8] → r - daysBefore (marchMonth r) < 30)
      ∧ (marchMonth r = 11 → r - daysBefore (marchMonth r) + 337 = r) := by
  have hall : ∀ r < 366,
      marchMonth r ≤ 11 ∧ daysBefore (marchMonth r) ≤ r ∧ r - daysBefore (marchMonth r) < 31
        ∧ (marchMonth r ∈ [1, 3, 6, 8] → r - daysBefore (marchMonth r) < 30)
        ∧ (marchMonth r = 11 → r - daysBefore (marchMonth r) + 337 = r) := by
    decide +kernel
  exact hall r (Nat.lt_succ_of_le h)

-- ================================================================== dates

/-- The date of a day, by its place in the cycles. -/
theorem ofDays_eq {days era : Int} {e c q k r : Nat} (h : Cycles e c q k r)
    (hdays : days + 719468 = era * 146097 + e) :
    Date.ofDays days
      = ⟨era * 400 + (100 * c + 4 * q + k : Nat) + (if marchMonth r < 10 then 0 else 1),
          if marchMonth r < 10 then marchMonth r + 3 else marchMonth r - 9,
          r - daysBefore (marchMonth r) + 1⟩ := by
  have hc := h.centuries
  have hq := h.leaps
  have hk := h.years
  have hlt : e < 146097 := by
    have := h.days
    have := h.last
    have := h.eq
    omega
  have hera : (days + 719468) / 146097 = era := by omega
  have hrest : ((days + 719468) % 146097).toNat = e := by omega
  obtain ⟨hm, -⟩ := marchMonth_spec h.days
  unfold Date.ofDays
  simp only [hera, hrest, h.year_eq, h.day_eq]
  unfold marchMonth daysBefore at *
  split
  case isTrue hbefore =>
    simp only [Date.mk.injEq, and_true]
    omega
  case isFalse hafter =>
    simp only [Date.mk.injEq, and_true]
    omega

/-- Every day has a place in the cycles of an era. -/
theorem exists_place (days : Int) : ∃ (era : Int) (e c q k r : Nat), Cycles e c q k r
    ∧ days + 719468 = era * 146097 + e := by
  obtain ⟨c, q, k, r, h⟩ := exists_cycles (e := ((days + 719468) % 146097).toNat) (by omega)
  exact ⟨(days + 719468) / 146097, _, c, q, k, r, h, by omega⟩

/-- A day is that of its date. -/
theorem toDays_ofDays (days : Int) : (Date.ofDays days).toDays = days := by
  obtain ⟨era, e, c, q, k, r, h, hdays⟩ := exists_place days
  rw [ofDays_eq h hdays]
  obtain ⟨hc, hq, hk, hr, hlast, rfl⟩ := h
  obtain ⟨hm, hstart, -⟩ := marchMonth_spec hr
  generalize marchMonth r = m at hm hstart ⊢
  have hmonth : ((if m < 10 then m + 3 else m - 9) + 9) % 12 = m := by split <;> omega
  have hyear : (if (if m < 10 then m + 3 else m - 9) ≤ 2 then
        (era * 400 + (100 * c + 4 * q + k : Nat) + (if m < 10 then 0 else 1) : Int) - 1
      else era * 400 + (100 * c + 4 * q + k : Nat) + (if m < 10 then 0 else 1))
      = era * 400 + (100 * c + 4 * q + k : Nat) := by
    by_cases hm10 : m < 10
    · simp only [if_pos hm10]
      rw [if_neg (by omega)]
      omega
    · simp only [if_neg hm10]
      rw [if_pos (by omega)]
      omega
  have hfour : (100 * c + 4 * q + k) / 4 = 25 * c + q := by omega
  have hhundred : (100 * c + 4 * q + k) / 100 = c := by omega
  unfold Date.toDays
  unfold daysBefore at *
  dsimp only
  rw [hyear, hmonth]
  omega

/-- The date of a day is in the calendar. -/
theorem ofDays_isValid (days : Int) : (Date.ofDays days).isValid = true := by
  obtain ⟨era, e, c, q, k, r, h, hdays⟩ := exists_place days
  rw [ofDays_eq h hdays]
  obtain ⟨hc, hq, hk, hr, hlast, rfl⟩ := h
  obtain ⟨hm, hstart, hday, hshort, hfebruary⟩ := marchMonth_spec hr
  generalize marchMonth r = m at *
  generalize r - daysBefore m = d at *
  unfold Date.isValid daysIn
  simp only [Bool.and_eq_true, decide_eq_true_iff]
  refine ⟨⟨⟨?_, ?_⟩, by omega⟩, ?_⟩
  · split <;> omega
  · split <;> omega
  · rcases Nat.lt_or_ge m 10 with hm10 | hm10
    · simp only [if_pos hm10]
      rw [if_neg (by omega)]
      split
      case isTrue hthirty =>
        have hmem : m ∈ [1, 3, 6, 8] := by
          simp only [List.mem_cons, List.not_mem_nil, or_false]
          omega
        exact hshort hmem
      case isFalse => omega
    · simp only [if_neg (Nat.not_lt.mpr hm10)]
      by_cases hm11 : m = 11
      · have hfeb := hfebruary hm11
        rw [if_pos (by omega)]
        split
        case isTrue => omega
        case isFalse hcommon =>
          -- a year from March has its last day only where it ends in a leap year
          have hnot : r ≠ 365 := by
            intro h
            have := hlast h
            omega
          omega
      · rw [if_neg (by omega), if_neg (by omega)]
        omega

end EventScript.Timestamp
