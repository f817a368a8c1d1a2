/-
Strings and integers that were written are read back. A string is read character by
character, each from its escape; an integer is read whole, since whatever stands behind it
in a document does not go on with a number.
-/
import EventScript.Json.Printer
import EventScript.Json.Reader
import EventScript.Proofs.Text.Numeral

namespace EventScript.Json.Reader

-- ================================================================ strings

/-- The four digits written for a control character are read as its code. -/
theorem codeUnit?_of_control {n : Nat} (h : n < 0x20) (rest : List Char) :
    codeUnit? ('0' :: '0' :: Nat.digitChar (n / 16) :: Nat.digitChar (n % 16) :: rest)
      = some (n, rest) := by
  have hunits : ∀ n < 0x20,
      Text.digitsFrom? 16 0 ['0', '0', Nat.digitChar (n / 16), Nat.digitChar (n % 16)]
        = some n := by decide
  simp only [codeUnit?, hunits n h, Option.map_some]

/-- Behind a backslash the escape is read, and the text goes on. -/
theorem stringChars_escape {fuel : Nat} {c : Char} {cs rest : List Char}
    (h : escape? cs = some (c, rest)) :
    stringChars (fuel + 1) ('\\' :: cs)
      = (stringChars fuel rest).map fun r => (c :: r.1, r.2) := by
  show (escape? cs).bind _ = _
  rw [h]
  show (stringChars fuel rest).bind _ = _
  cases stringChars fuel rest <;> rfl

theorem stringChars_plain {fuel : Nat} {c : Char} {rest : List Char} (hquote : c ≠ '"')
    (hslash : c ≠ '\\') (hcontrol : ¬ c.toNat < 0x20) :
    stringChars (fuel + 1) (c :: rest) = (stringChars fuel rest).map fun r => (c :: r.1, r.2) := by
  rw [stringChars, if_neg (by simpa using hquote), if_neg (by simpa using hslash),
    if_neg hcontrol]
  show (stringChars fuel rest).bind _ = _
  cases stringChars fuel rest <;> rfl

/-- A character is read from its escape. -/
theorem stringChars_escapeChar (fuel : Nat) (c : Char) (rest : List Char) :
    stringChars (fuel + 1) (escapeChar c ++ rest)
      = (stringChars fuel rest).map fun r => (c :: r.1, r.2) := by
  unfold escapeChar
  -- the seven characters with an escape of their own
  iterate 7
    split
    · next h =>
      obtain rfl := eq_of_beq h
      exact stringChars_escape rfl
  split
  case isTrue hcontrol =>
    refine stringChars_escape ?_
    show (codeUnit? ('0' :: '0' :: Nat.digitChar (c.toNat / 16) :: Nat.digitChar (c.toNat % 16)
      :: rest)).bind _ = _
    rw [codeUnit?_of_control hcontrol]
    show unicodeEscape? c.toNat rest = _
    unfold unicodeEscape?
    rw [if_neg (by simp; omega), if_neg (by simp; omega), Char.ofNat_toNat]
  case isFalse hcontrol => exact stringChars_plain (by simp_all) (by simp_all) hcontrol

/-- Characters are read from their escapes, up to the quote behind them. -/
theorem stringChars_flatMap (cs : List Char) {fuel : Nat} (h : cs.length < fuel)
    (rest : List Char) :
    stringChars fuel (cs.flatMap escapeChar ++ '"' :: rest) = some (cs, rest) := by
  induction cs generalizing fuel with
  | nil =>
      obtain ⟨n, rfl⟩ := Nat.exists_eq_add_of_lt h
      rfl
  | cons c cs ih =>
      cases fuel with
      | zero => exact absurd h (Nat.not_lt_zero _)
      | succ n =>
          rw [List.flatMap_cons, List.append_assoc, stringChars_escapeChar,
            ih (Nat.lt_of_succ_lt_succ h)]
          rfl

theorem length_escapeChar_pos (c : Char) : 0 < (escapeChar c).length := by
  unfold escapeChar
  repeat' split
  all_goals simp

/-- A text is not shorter when it is escaped, so that its length is enough fuel. -/
theorem length_le_flatMap_escapeChar (cs : List Char) :
    cs.length ≤ (cs.flatMap escapeChar).length := by
  induction cs with
  | nil => exact Nat.le_refl _
  | cons c cs ih =>
      have hc := length_escapeChar_pos c
      rw [List.flatMap_cons, List.length_append, List.length_cons]
      omega

/-- A string is read from its text; the opening quote is already read. -/
theorem string?_flatMap (s : String) (rest : List Char) :
    string? (s.toList.flatMap escapeChar ++ '"' :: rest) = some (s, rest) := by
  have hlength := length_le_flatMap_escapeChar s.toList
  unfold string?
  rw [stringChars_flatMap s.toList (by rw [List.length_append]; omega)]
  show some (String.ofList s.toList, rest) = _
  rw [String.ofList_toList]

-- =============================================================== integers

/-- Nothing that goes on with a number. -/
def EndsNumber (rest : List Char) : Prop :=
  ∀ c ∈ rest.head?, c.isDigit = false ∧ c ≠ '.' ∧ c ≠ 'e' ∧ c ≠ 'E'

/-- The reader's digits are the library's. -/
theorem digit_iff {c : Char} : ('0' ≤ c && c ≤ '9') = c.isDigit := by
  rw [Bool.eq_iff_iff, Char.isDigit_iff_toNat, Bool.and_eq_true, decide_eq_true_iff,
    decide_eq_true_iff]
  rfl

/-- A run of digits is read whole. -/
theorem digitRun_append {cs rest : List Char} (h : ∀ c ∈ cs, c.isDigit = true)
    (hrest : EndsNumber rest) :
    digitRun (cs ++ rest) = (cs.map fun c => c.toNat - 0x30, rest) := by
  have hnone : rest.takeWhile Char.isDigit = [] := by
    cases rest with
    | nil => rfl
    | cons c rest => exact List.takeWhile_cons_of_neg (by simp [(hrest c rfl).1])
  unfold digitRun
  simp only [digit_iff]
  rw [List.takeWhile_append_of_pos h, hnone, List.append_nil, List.drop_left]

/-- Further digits do not make a number less. -/
theorem le_ofDigitChars (cs : List Char) (n : Nat) : n ≤ Nat.ofDigitChars 10 cs n := by
  have hpos : 0 < 10 ^ cs.length := Nat.pow_pos (by decide)
  rw [Nat.ofDigitChars_eq_ofDigitChars_zero]
  calc n = 1 * n := (Nat.one_mul n).symm
    _ ≤ 10 ^ cs.length * n := Nat.mul_le_mul_right n hpos
    _ ≤ _ := Nat.le_add_right ..

/-- Digits of a word leave nothing over. -/
theorem pack_of_lt (cs : List Char) {acc : Nat}
    (h : Nat.ofDigitChars 10 cs acc < 0x10000000000000000) :
    Literal.pack acc (cs.map fun c => c.toNat - 0x30) = (Nat.ofDigitChars 10 cs acc, 0) := by
  induction cs generalizing acc with
  | nil => rfl
  | cons c cs ih =>
      rw [Nat.ofDigitChars_cons] at h ⊢
      have hstep : acc * 10 + (c.toNat - 0x30) = 10 * acc + (c.toNat - '0'.toNat) := by
        rw [Nat.mul_comm]
        rfl
      rw [List.map_cons, Literal.pack, hstep,
        if_pos (Nat.lt_of_le_of_lt (le_ofDigitChars cs _) h), ih h]

/-- A numeral of more than one digit does not start with a zero. -/
theorem ne_zero_of_toDigits {n : Nat} {c d : Char} {cs : List Char}
    (h : Nat.toDigits 10 n = c :: d :: cs) : c ≠ '0' := by
  intro hc
  have hdigits : ∀ x ∈ d :: cs, x.isDigit = true := fun x hx =>
    Text.isDigit_of_mem_digits (by rw [h]; exact List.mem_cons_of_mem _ hx)
  have hvalue : Nat.ofDigitChars 10 (Nat.toDigits 10 n) 0 = n :=
    Nat.ofDigitChars_toDigits (by decide) (by decide)
  rw [h, hc, Nat.ofDigitChars_cons] at hvalue
  have hlt : n < 10 ^ (d :: cs).length := by
    rw [← hvalue]
    exact Text.ofDigitChars_lt_pow hdigits
  -- so fewer digits would do
  have hle := (Nat.length_toDigits_le_iff (by decide) (Nat.succ_pos cs.length)).mpr hlt
  rw [h] at hle
  exact absurd hle (Nat.not_succ_le_self _)

/-- The digits of a number, as literals have them. -/
def digitsOf (n : Nat) : List Nat := (Nat.toDigits 10 n).map fun c => c.toNat - 0x30

/-- The digits of a number are read as a whole part; only zero begins with a zero. -/
theorem whole?_toDigits (n : Nat) {rest : List Char} (hrest : EndsNumber rest) :
    whole? (Nat.toDigits 10 n ++ rest) = some (digitsOf n, rest) := by
  unfold digitsOf
  have hdigits : ∀ c ∈ Nat.toDigits 10 n, c.isDigit = true := fun c => Text.isDigit_of_mem_digits
  have hrun := digitRun_append hdigits hrest
  cases hn : Nat.toDigits 10 n with
  | nil => exact absurd hn Nat.toDigits_ne_nil
  | cons c cs =>
    rw [hn] at hrun
    unfold whole?
    split
    · next hzero =>
      obtain ⟨rfl, rfl⟩ := List.cons.inj hzero
      cases cs with
      | cons d cs => exact absurd rfl (ne_zero_of_toDigits hn)
      | nil =>
        rw [if_neg]
        · rfl
        · cases rest with
          | nil => exact Bool.false_ne_true
          | cons d rest => simp [digit_iff, (hrest d rfl).1]
    · unfold someDigits?
      rw [hrun]
      rfl

/-- The digits of a number are read as a number without fraction and exponent. -/
theorem unsigned?_toDigits (n : Nat) {rest : List Char} (hrest : EndsNumber rest)
    (negative : Bool) :
    unsigned? negative (Nat.toDigits 10 n ++ rest)
      = (Literal.number? ⟨negative, digitsOf n, none, none⟩).map (·, rest) := by
  have hfraction : fraction? rest = some (none, rest) := by
    unfold fraction?
    split
    · next rest => exact absurd rfl (hrest '.' rfl).2.1
    · rfl
  have hpower : power? rest = some (none, rest) := by
    unfold power?
    split
    · next rest => exact absurd rfl (hrest 'e' rfl).2.2.1
    · next rest => exact absurd rfl (hrest 'E' rfl).2.2.2
    · rfl
  unfold unsigned?
  rw [whole?_toDigits n hrest]
  show (fraction? rest).bind _ = _
  rw [hfraction]
  show (power? rest).bind _ = _
  rw [hpower]
  show (Literal.number? _).bind _ = _
  cases Literal.number? ⟨negative, digitsOf n, none, none⟩ <;> rfl

/-- The digits of a word, with a sign or without, stand for an integer that fits. -/
theorem literal_number?_of_fits {n : Nat} (negative : Bool) {i : Int}
    (hi : i = if negative then -(n : Int) else n) (h : FitsWord i)
    (hzero : negative = true → n ≠ 0) :
    Literal.number? ⟨negative, digitsOf n, none, none⟩ = some (.int i h) := by
  have hvalue : Nat.ofDigitChars 10 (Nat.toDigits 10 n) 0 = n :=
    Nat.ofDigitChars_toDigits (by decide) (by decide)
  have hword : n < 0x10000000000000000 := by
    cases negative <;> simp only [hi, FitsWord] at h <;> simp at h <;> omega
  have hpack : Literal.pack 0 (digitsOf n) = (n, 0) := by
    have hread := pack_of_lt (Nat.toDigits 10 n) (hvalue.symm ▸ hword)
    rw [hvalue] at hread
    exact hread
  have hint : Number.ofInt? i = some (.int i h) := dif_pos h
  unfold Literal.number?
  simp only [hpack]
  rw [← hi, hint, if_pos]
  simp only [hi, FitsWord] at h
  cases negative with
  | false => rfl
  | true =>
      have hne := hzero rfl
      simp only [if_true] at h
      simp [hne]
      omega

/-- An integer is read from its text. -/
theorem number?_toString {i : Int} (h : FitsWord i) {rest : List Char} (hrest : EndsNumber rest) :
    number? ((toString i).toList ++ rest) = some (.int i h, rest) := by
  rw [Text.toList_toString]
  split
  case isTrue hi =>
    have hread := literal_number?_of_fits (n := i.toNat) false (Int.toNat_of_nonneg hi).symm h
      (fun hneg => Bool.noConfusion hneg)
    have hnumber := unsigned?_toDigits i.toNat hrest false
    rw [hread] at hnumber
    unfold number?
    split
    · next heq =>
      -- a digit comes first, and no sign
      cases hd : Nat.toDigits 10 i.toNat with
      | nil => exact absurd hd Nat.toDigits_ne_nil
      | cons c cs =>
          rw [hd] at heq
          have hc : '-' ∈ Nat.toDigits 10 i.toNat := by
            rw [hd, (List.cons.inj heq).1]
            exact List.mem_cons_self ..
          exact absurd (Text.isDigit_of_mem_digits hc) (by decide)
    · exact hnumber
  case isFalse hi =>
    have hread := literal_number?_of_fits (n := (-i).toNat) true
      (show i = -((-i).toNat : Int) by omega) h (fun _ => by omega)
    rw [List.cons_append, number?, unsigned?_toDigits _ hrest, hread]
    rfl

end EventScript.Json.Reader
