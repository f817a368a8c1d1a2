/-
An instant that was written is read back. Its text has the date and the time of day in fixed
places, years of more than four digits behind a sign, and as much of a fraction as there is; so
the reader finds each part where it stops at the mark behind it. A leap second is told by
being the sixtieth, which is why it can only be written where a minute ends.
-/
import EventScript.Proofs.Text.Numeral
import EventScript.Proofs.Timestamp.Calendar

namespace EventScript.Timestamp

/-- Whether the text of an instant is one that is read: the year is not out of reach, and a
second that goes on for longer ends a minute. -/
structure Representable (t : Timestamp) : Prop where
  year : -262143 ≤ (Date.ofDays (t.seconds / 86400)).year
    ∧ (Date.ofDays (t.seconds / 86400)).year ≤ 262142
  nanos : t.nanos < 1000000000 ∨ t.seconds % 60 = 59 ∧ t.nanos < 2000000000

-- ========================================================== padded numbers

theorem toList_padded (width n : Nat) :
    (padded width n).toList
      = List.replicate (width - (Nat.toDigits 10 n).length) '0' ++ Nat.toDigits 10 n := by
  have hdigits : (toString n).toList = Nat.toDigits 10 n := Nat.toList_repr
  unfold padded
  rw [String.toList_append, String.toList_ofList, hdigits, ← String.length_toList, hdigits]

theorem isDigit_of_mem_padded {width n : Nat} {c : Char} (h : c ∈ (padded width n).toList) :
    c.isDigit = true := by
  rw [toList_padded, List.mem_append] at h
  rcases h with hzero | hdigit
  · rw [(List.mem_replicate.mp hzero).2]
    rfl
  · exact Text.isDigit_of_mem_digits hdigit

/-- A padded number is read back. -/
theorem natural?_padded (width n : Nat) : Text.natural? 10 (padded width n).toList = some n := by
  have hdigits : ∀ c ∈ (padded width n).toList, c.isDigit = true := fun c => isDigit_of_mem_padded
  have hvalue : Nat.ofDigitChars 10 (padded width n).toList 0 = n := by
    have hzeros : ∀ k, Nat.ofDigitChars 10 (List.replicate k '0') 0 = 0 := by
      intro k
      induction k with
      | zero => rfl
      | succ k ih =>
          rw [List.replicate_succ, Nat.ofDigitChars_cons]
          exact ih
    rw [toList_padded, Nat.ofDigitChars_append, hzeros,
      Nat.ofDigitChars_toDigits (by decide) (by decide)]
  have hread := Text.digitsFrom?_of_isDigit hdigits 0
  rw [hvalue] at hread
  unfold Text.natural?
  split
  · next hnil =>
    rw [toList_padded] at hnil
    exact absurd (List.append_eq_nil_iff.mp hnil).2 Nat.toDigits_ne_nil
  · exact hread

/-- A number that has no more digits than the width is as wide as that. -/
theorem length_padded {width n : Nat} (hw : 0 < width) (h : n < 10 ^ width) :
    (padded width n).toList.length = width := by
  have hle := (Nat.length_toDigits_le_iff (by decide) hw).mpr h
  rw [toList_padded, List.length_append, List.length_replicate]
  omega

theorem padded_eq_cons (width n : Nat) :
    ∃ c cs, (padded width n).toList = c :: cs ∧ c.isDigit = true := by
  cases h : (padded width n).toList with
  | nil =>
      have hread := natural?_padded width n
      rw [h] at hread
      cases hread
  | cons c cs =>
      exact ⟨c, cs, rfl, isDigit_of_mem_padded (by rw [h]; exact List.mem_cons_self ..)⟩

-- =================================================================== parts

/-- A number ends after so many digits, or where the digits end. -/
theorem number?_of_isDigit {width n : Nat} {cs rest : List Char}
    (hdigits : ∀ c ∈ cs, c.isDigit = true) (hread : Text.natural? 10 cs = some n)
    (hstop : cs.length = width ∨ cs.length ≤ width ∧ ∀ c ∈ rest.head?, c.isDigit = false) :
    number? width (cs ++ rest) = some (n, rest) := by
  have hstart : skipBlank (cs ++ rest) = cs ++ rest := by
    cases cs with
    | nil => cases hread
    | cons c cs =>
        have hc := Text.not_blank_of_isDigit (hdigits c (List.mem_cons_self ..))
        exact List.dropWhile_cons_of_neg (by simp [hc])
  have hall : cs.takeWhile Char.isDigit = cs := by
    have happend : (cs ++ []).takeWhile Char.isDigit = cs ++ [] :=
      List.takeWhile_append_of_pos hdigits
    rwa [List.append_nil] at happend
  have htake : ((cs ++ rest).take width).takeWhile Char.isDigit = cs := by
    rcases hstop with hwidth | ⟨hwidth, hend⟩
    · rw [← hwidth, List.take_left]
      exact hall
    · rw [List.take_append, List.take_of_length_le hwidth, List.takeWhile_append_of_pos hdigits]
      cases hrest : rest.take (width - cs.length) with
      | nil => exact List.append_nil cs
      | cons c tail =>
          have hc : c ∈ rest.head? := by
            cases rest with
            | nil => simp at hrest
            | cons d rest =>
                cases hn : width - cs.length with
                | zero => simp [hn] at hrest
                | succ n =>
                    rw [hn, List.take_succ_cons] at hrest
                    exact congrArg some (List.cons.inj hrest).1
          rw [List.takeWhile_cons_of_neg (by simp [hend c hc]), List.append_nil]
  unfold number?
  rw [hstart]
  simp only [htake, hread, Option.map_some, List.drop_left]

/-- A number of so many places is read from them. -/
theorem number?_padded {width n : Nat} (hw : 0 < width) (h : n < 10 ^ width) (rest : List Char) :
    number? width ((padded width n).toList ++ rest) = some (n, rest) :=
  number?_of_isDigit (fun _ => isDigit_of_mem_padded) (natural?_padded width n)
    (Or.inl (length_padded hw h))

theorem mark?_self {c : Char} (h : Text.isBlank c = false) (rest : List Char) :
    mark? c (c :: rest) = some rest := by
  have hskip : skipBlank (c :: rest) = c :: rest := List.dropWhile_cons_of_neg (by simp [h])
  unfold mark?
  rw [hskip]
  simp

/-- A year behind a sign is read up to the mark. -/
theorem number?_signed (n : Nat) (rest : List Char) :
    number? ((padded 4 n).toList ++ '-' :: rest).length ((padded 4 n).toList ++ '-' :: rest)
      = some (n, '-' :: rest) := by
  refine number?_of_isDigit (fun _ => isDigit_of_mem_padded) (natural?_padded 4 n) (Or.inr ⟨?_, ?_⟩)
  · simp
  · intro c hc
    cases hc
    rfl

theorem year?_minus (cs : List Char) :
    year? ('-' :: cs) = if (cs.head?.map Char.isDigit).getD false then
      (number? cs.length cs).map fun (n, r) => (-(n : Int), r) else none := rfl

theorem year?_plus (cs : List Char) :
    year? ('+' :: cs) = if (cs.head?.map Char.isDigit).getD false then
      (number? cs.length cs).map fun (n, r) => ((n : Int), r) else none := rfl

/-- A year is read back. -/
theorem year?_yearText (y : Int) (rest : List Char) :
    year? ((yearText y).toList ++ '-' :: rest) = some (y, '-' :: rest) := by
  -- a sign is read as one only in front of a digit
  have hdigit : ∀ n, (((padded 4 n).toList ++ '-' :: rest).head?.map Char.isDigit).getD false
      = true := by
    intro n
    obtain ⟨c, cs, hcs, hc⟩ := padded_eq_cons 4 n
    rw [hcs]
    exact hc
  unfold yearText
  split
  case isTrue hfour =>
    have hread := number?_padded (by decide)
      (show y.toNat < 10 ^ 4 by omega) ('-' :: rest)
    obtain ⟨c, cs, hcs, hc⟩ := padded_eq_cons 4 y.toNat
    have hskip : skipBlank (c :: (cs ++ '-' :: rest)) = c :: (cs ++ '-' :: rest) :=
      List.dropWhile_cons_of_neg (by simp [Text.not_blank_of_isDigit hc])
    rw [hcs, List.cons_append] at hread ⊢
    unfold year?
    rw [hskip]
    -- a digit is neither of the two signs
    split
    · next heq =>
      rw [(List.cons.inj heq).1] at hc
      exact absurd hc (by decide)
    · next heq =>
      rw [(List.cons.inj heq).1] at hc
      exact absurd hc (by decide)
    · rw [hread]
      show some ((y.toNat : Int), _) = _
      rw [Int.toNat_of_nonneg hfour.1]
  case isFalse hlong =>
    split
    case isTrue hneg =>
      have hsplit : ("-" ++ padded 4 y.natAbs).toList ++ '-' :: rest
          = '-' :: ((padded 4 y.natAbs).toList ++ '-' :: rest) := by
        rw [String.toList_append]
        rfl
      rw [hsplit, year?_minus, if_pos (hdigit _), number?_signed]
      show some (-(y.natAbs : Int), _) = _
      rw [show -(y.natAbs : Int) = y by omega]
    case isFalse hpos =>
      have hsplit : ("+" ++ padded 4 y.toNat).toList ++ '-' :: rest
          = '+' :: ((padded 4 y.toNat).toList ++ '-' :: rest) := by
        rw [String.toList_append]
        rfl
      rw [hsplit, year?_plus, if_pos (hdigit _), number?_signed]
      show some ((y.toNat : Int), _) = _
      rw [Int.toNat_of_nonneg (by omega)]

/-- A fraction of so many places counts as many billionths as it would with nine. -/
theorem fraction?_point {width n : Nat} (hw : 0 < width) (hnine : width ≤ 9) (h : n < 10 ^ width)
    {rest : List Char} (hrest : ∀ c ∈ rest.head?, c.isDigit = false) :
    fraction? ('.' :: ((padded width n).toList ++ rest)) = some (n * 10 ^ (9 - width), rest) := by
  have hlength := length_padded hw h
  have hnone : rest.takeWhile Char.isDigit = [] := by
    cases rest with
    | nil => rfl
    | cons c rest => exact List.takeWhile_cons_of_neg (by simp [hrest c rfl])
  have hdigits : ((padded width n).toList ++ rest).takeWhile Char.isDigit
      = (padded width n).toList := by
    rw [List.takeWhile_append_of_pos fun _ => isDigit_of_mem_padded, hnone, List.append_nil]
  have hkept : (padded width n).toList.take 9 = (padded width n).toList :=
    List.take_of_length_le (by omega)
  have hdrop : ((padded width n).toList ++ rest).drop width = rest := List.drop_left' hlength
  simp only [fraction?, hdigits, hkept, natural?_padded, hlength, Option.map_some, hdrop]
  rfl

/-- A fraction is read back. -/
theorem fraction?_fractionText {nanos : Nat} (h : nanos < 1000000000) :
    fraction? ((fractionText nanos).toList ++ ['Z']) = some (nanos, ['Z']) := by
  have hend : ∀ c ∈ ['Z'].head?, c.isDigit = false := by
    intro c hc
    cases hc
    rfl
  have hpoint : ∀ width n, ("." ++ padded width n).toList ++ ['Z']
      = '.' :: ((padded width n).toList ++ ['Z']) := by
    intro width n
    rw [String.toList_append]
    rfl
  unfold fractionText
  split
  case isTrue hnone =>
    rw [hnone]
    rfl
  case isFalse =>
    split
    case isTrue hmillis =>
      rw [hpoint, fraction?_point (by decide) (by decide) (by omega) hend]
      have : nanos / 1000000 * 10 ^ (9 - 3) = nanos := by omega
      rw [this]
    case isFalse =>
      split
      case isTrue hmicros =>
        rw [hpoint, fraction?_point (by decide) (by decide) (by omega) hend]
        have : nanos / 1000 * 10 ^ (9 - 6) = nanos := by omega
        rw [this]
      case isFalse =>
        rw [hpoint, fraction?_point (by decide) (by decide) (by omega) hend]
        have : nanos * 10 ^ (9 - 9) = nanos := by omega
        rw [this]

theorem offset?_zulu : offset? ['Z'] = some (0, []) := rfl

-- ================================================================ instants

/-- The text of a date and a time of day, as characters. -/
theorem toList_write (t : Timestamp) :
    t.write.toList
      = (yearText (Date.ofDays (t.seconds / 86400)).year).toList
        ++ '-' :: ((padded 2 (Date.ofDays (t.seconds / 86400)).month).toList
        ++ '-' :: ((padded 2 (Date.ofDays (t.seconds / 86400)).day).toList
        ++ 'T' :: ((padded 2 ((t.seconds % 86400).toNat / 3600)).toList
        ++ ':' :: ((padded 2 ((t.seconds % 86400).toNat / 60 % 60)).toList
        ++ ':' :: ((padded 2 ((t.seconds % 86400).toNat % 60
          + if 1000000000 ≤ t.nanos then 1 else 0)).toList
        ++ ((fractionText (t.nanos % 1000000000)).toList ++ ['Z'])))))) := by
  have hdash : "-".toList = ['-'] := rfl
  have hcolon : ":".toList = [':'] := rfl
  have htime : "T".toList = ['T'] := rfl
  have hzone : "Z".toList = ['Z'] := rfl
  unfold write clockText
  simp only [String.toList_append, List.append_assoc, hdash, hcolon, htime, hzone, List.cons_append,
    List.nil_append]

/-- The month and the day of a date have two digits. -/
theorem date_lt_of_isValid {d : Date} (h : d.isValid = true) :
    d.month < 10 ^ 2 ∧ d.day < 10 ^ 2 := by
  have hdays : daysIn d.year d.month ≤ 31 := by
    unfold daysIn
    repeat' split
    all_goals decide
  simp only [Date.isValid, Bool.and_eq_true, decide_eq_true_iff] at h
  omega

/-- What is read from a date of the calendar and a time of day. -/
theorem parse?_of_toList {s : String} {d : Date} {hour minute second nanos : Nat}
    (hs : s.toList = (yearText d.year).toList ++ '-' :: ((padded 2 d.month).toList
      ++ '-' :: ((padded 2 d.day).toList ++ 'T' :: ((padded 2 hour).toList
      ++ ':' :: ((padded 2 minute).toList ++ ':' :: ((padded 2 second).toList
      ++ ((fractionText nanos).toList ++ ['Z'])))))))
    (hd : d.isValid = true) (hdays : Date.ofDays d.toDays = d)
    (hyear : -262143 ≤ d.year ∧ d.year ≤ 262142) (hhour : hour < 24) (hminute : minute < 60)
    (hsecond : second ≤ 60) (hnanos : nanos < 1000000000) :
    parse? s = some ⟨d.toDays * 86400
        + (hour * 3600 + minute * 60 + (if second = 60 then 59 else second) : Nat),
      nanos + if second = 60 then 1000000000 else 0⟩ := by
  obtain ⟨hmonth, hday⟩ := date_lt_of_isValid hd
  have hnumber : ∀ n < 10 ^ 2, ∀ rest, number? 2 ((padded 2 n).toList ++ rest) = some (n, rest) :=
    fun n hn => number?_padded (by decide) hn
  have hdash : ∀ rest, mark? '-' ('-' :: rest) = some rest := mark?_self (by decide)
  have hcolon : ∀ rest, mark? ':' (':' :: rest) = some rest := mark?_self (by decide)
  have hdate : (⟨d.year, d.month, d.day⟩ : Date) = d := rfl
  have hcounted : isYear d.year = true := by simp [isYear, hyear]
  -- the time of day stays within the day, a leap second included
  have hsame : (d.toDays * 86400
      + (hour * 3600 + minute * 60 + (if second = 60 then 59 else second) : Nat)) / 86400
        = d.toDays := by
    split <;> omega
  unfold parse?
  rw [hs, year?_yearText]
  dsimp only [Option.bind_eq_bind, Option.bind_some]
  rw [hdash, Option.bind_some, hnumber _ hmonth]
  dsimp only [Option.bind_some]
  rw [hdash, Option.bind_some, hnumber _ hday]
  dsimp only [Option.bind_some]
  rw [if_pos (by decide), hnumber hour (by omega)]
  dsimp only [Option.bind_some]
  rw [hcolon, Option.bind_some, hnumber minute (by omega)]
  dsimp only [Option.bind_some]
  rw [hcolon, Option.bind_some, hnumber second (by omega)]
  dsimp only [Option.bind_some]
  rw [fraction?_fractionText hnanos]
  dsimp only [Option.bind_some]
  rw [offset?_zulu]
  dsimp only [Option.bind_some]
  rw [hdate, Int.sub_zero, hsame, hdays,
    if_pos (by simp [hd, hhour, hminute, hsecond, hcounted])]

/-- An instant is read from its text. -/
theorem parse?_write {t : Timestamp} (h : t.Representable) : parse? t.write = some t := by
  have hleap : ((t.seconds % 86400).toNat % 60 + if 1000000000 ≤ t.nanos then 1 else 0) ≤ 60 := by
    split <;> omega
  rw [parse?_of_toList (toList_write t) (ofDays_isValid _) (by rw [toDays_ofDays]) h.year (by omega)
    (Nat.mod_lt _ (by decide)) hleap (Nat.mod_lt _ (by decide)), toDays_ofDays]
  have hnanos := h.nanos
  obtain ⟨seconds, nanos⟩ := t
  dsimp only at hnanos ⊢
  -- the sixtieth second is the one that goes on
  by_cases hlong : 1000000000 ≤ nanos
  · have hend : (seconds % 86400).toNat % 60 = 59 := by omega
    have hseconds : seconds / 86400 * 86400 + (((seconds % 86400).toNat / 3600 * 3600
        + (seconds % 86400).toNat / 60 % 60 * 60 + 59 : Nat) : Int) = seconds := by omega
    have hwhole : nanos % 1000000000 + 1000000000 = nanos := by omega
    simp only [if_pos hlong, hend, if_true]
    rw [hseconds, hwhole]
  · have hseconds : seconds / 86400 * 86400 + (((seconds % 86400).toNat / 3600 * 3600
        + (seconds % 86400).toNat / 60 % 60 * 60 + (seconds % 86400).toNat % 60 : Nat) : Int)
        = seconds := by omega
    have hpart : nanos % 1000000000 = nanos := Nat.mod_eq_of_lt (Nat.not_le.mp hlong)
    simp only [if_neg hlong, Nat.add_zero]
    rw [if_neg (by omega), if_neg (by omega), hseconds, hpart, Nat.add_zero]

end EventScript.Timestamp
