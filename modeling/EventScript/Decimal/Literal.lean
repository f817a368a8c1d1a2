/-
Decimal literals in text: a sign, digits with an optional point and an optional exponent,
or one of the names of infinity and of no number. The value is the double nearest to the
decimal, however long the literal is.
-/
import EventScript.Text.Numeral
import EventScript.Decimal.Binary64

namespace EventScript.Decimal

open Text (natural? signed? digitsFrom?)

/-- A decimal digit of ASCII. -/
private def isDigit (c : Char) : Bool := '0' ≤ c && c ≤ '9'

/-- The part after the mantissa: nothing, or `e` and a signed whole number. -/
private def exponent? : List Char → Option Int
  | [] => some 0
  | c :: rest => if c == 'e' || c == 'E' then signed? 10 rest else none

/-- A literal without sign. At least one digit stands before or after the point. -/
private def unsignedLiteral? (negative : Bool) (cs : List Char) : Option Binary64 := do
  let whole := cs.takeWhile isDigit
  let rest := cs.dropWhile isDigit
  let (fraction, rest) := match rest with
    | '.' :: tail => (tail.takeWhile isDigit, tail.dropWhile isDigit)
    | _ => ([], rest)
  let digits ← natural? 10 (whole ++ fraction)
  let exponent ← exponent? rest
  some (.ofDecimal negative digits (exponent - fraction.length))

/-- The doubles that are written as words, in any case. -/
private def named? (negative : Bool) (cs : List Char) : Option Binary64 :=
  let name := String.ofList (cs.map Char.toLower)
  if name == "inf" || name == "infinity" then some (.infinity negative)
  else if name == "nan" then some .nan
  else none

/-- The double a literal denotes. -/
def literal? (cs : List Char) : Option Binary64 :=
  let (negative, body) := match cs with
    | '+' :: rest => (false, rest)
    | '-' :: rest => (true, rest)
    | _ => (false, cs)
  (unsignedLiteral? negative body).orElse fun _ => named? negative body

/-- A text that is a fraction, and its digits: nothing, or a point and digits. -/
inductive WritesFraction : List Char → List Char → Prop
  | nothing : WritesFraction [] []
  | point {digits : List Char} : (∀ c ∈ digits, c.isDigit = true) →
      WritesFraction ('.' :: digits) digits

/-- A text that is an exponent of ten, and the exponent: nothing, or `e` and a numeral. -/
inductive WritesExponent : List Char → Int → Prop
  | nothing : WritesExponent [] 0
  | numeral {cs : List Char} {k : Int} : signed? 10 cs = some k → WritesExponent ('e' :: cs) k

variable {whole fraction digits exponent : List Char} {n : Nat} {k : Int}

/-- What writes an exponent begins with no digit, so that the digits in front of it end there. -/
private theorem WritesExponent.not_isDigit (h : WritesExponent exponent k) :
    exponent.takeWhile isDigit = [] ∧ exponent.dropWhile isDigit = exponent := by
  cases h <;> exact ⟨rfl, rfl⟩

/-- An exponent is read as it is written. -/
private theorem exponent?_of_writes (h : WritesExponent exponent k) :
    exponent? exponent = some k := by
  cases h with
  | nothing => rfl
  | numeral hk => exact hk

/-- A literal is read part by part. -/
private theorem unsignedLiteral?_of_writes (negative : Bool)
    (hwhole : ∀ c ∈ whole, c.isDigit = true) (hfraction : WritesFraction fraction digits)
    (hn : natural? 10 (whole ++ digits) = some n) (hexponent : WritesExponent exponent k) :
    unsignedLiteral? negative (whole ++ (fraction ++ exponent))
      = some (.ofDecimal negative n (k - digits.length)) := by
  have htake : ∀ {ds : List Char}, (∀ c ∈ ds, c.isDigit = true) → ∀ rest : List Char,
      (ds ++ rest).takeWhile isDigit = ds ++ rest.takeWhile isDigit
        ∧ (ds ++ rest).dropWhile isDigit = rest.dropWhile isDigit :=
    fun hds rest => ⟨List.takeWhile_append_of_pos hds, List.dropWhile_append_of_pos hds⟩
  obtain ⟨hnone, hkeep⟩ := hexponent.not_isDigit
  unfold unsignedLiteral?
  rw [(htake hwhole _).1, (htake hwhole _).2]
  cases hfraction with
  | nothing =>
      rw [List.append_nil] at hn
      rw [List.nil_append, hnone, hkeep]
      cases hexponent with
      | nothing => simp [hn, exponent?]
      | numeral hk => simp [hn, exponent?, hk]
  | point hdigits =>
      have hstart : ∀ cs : List Char, ('.' :: cs).takeWhile isDigit = []
          ∧ ('.' :: cs).dropWhile isDigit = '.' :: cs := fun _ => ⟨rfl, rfl⟩
      rw [List.cons_append, (hstart _).1, (hstart _).2]
      simp [htake hdigits, hnone, hkeep, hn, exponent?_of_writes hexponent]

private theorem literal?_minus (body : List Char) : literal? ('-' :: body)
    = (unsignedLiteral? true body).orElse fun _ => named? true body :=
  rfl

/-- No digit is a sign. -/
private theorem literal?_of_digit {c : Char} (hc : c.isDigit = true) (cs : List Char) :
    literal? (c :: cs)
      = (unsignedLiteral? false (c :: cs)).orElse fun _ => named? false (c :: cs) := by
  unfold literal?
  split
  next negative body hsign =>
    split at hsign
    · next heq => cases heq; exact absurd hc (by decide)
    · next heq => cases heq; exact absurd hc (by decide)
    · cases hsign
      rfl

/-- A minus in front of a literal makes it negative. -/
theorem literal?_of_writes (negative : Bool) (hwhole : ∀ c ∈ whole, c.isDigit = true)
    (hne : whole ≠ []) (hfraction : WritesFraction fraction digits)
    (hn : natural? 10 (whole ++ digits) = some n) (hexponent : WritesExponent exponent k) :
    literal? ((if negative then ['-'] else []) ++ (whole ++ (fraction ++ exponent)))
      = some (.ofDecimal negative n (k - digits.length)) := by
  have hunsigned := unsignedLiteral?_of_writes negative hwhole hfraction hn hexponent
  cases negative with
  | true =>
      rw [if_pos rfl, List.singleton_append, literal?_minus, hunsigned]
      rfl
  | false =>
      obtain ⟨c, rest, rfl⟩ := List.exists_cons_of_ne_nil hne
      rw [List.cons_append] at hunsigned
      rw [if_neg Bool.false_ne_true, List.nil_append, List.cons_append,
        literal?_of_digit (hwhole c (List.mem_cons_self ..)), hunsigned]
      rfl

/-- Digits alone denote the double nearest to the whole number they write. -/
theorem literal?_of_isDigit {cs : List Char} {n : Nat} (hdigits : ∀ c ∈ cs, c.isDigit = true)
    (hn : natural? 10 cs = some n) : literal? cs = some (.ofDecimal false n 0) := by
  have hne : cs ≠ [] := by
    rintro rfl
    cases hn
  rw [← List.append_nil cs] at hn
  have hread := literal?_of_writes false hdigits hne .nothing hn .nothing
  rwa [if_neg Bool.false_ne_true, List.nil_append, List.append_nil, List.append_nil] at hread

end EventScript.Decimal
