/-
The shortest decimal that reads back as a given double, and how it is laid out. The
decimals that read back form an interval around the double, its ends halfway to the
neighbours; the first grid of 1, 2, ... digits with a point in the interval gives the
digits, and of two points the nearer one.
-/
import EventScript.Decimal.Binary64

namespace EventScript.Decimal

/-- A positive decimal `0.d₁d₂... * 10 ^ point`, its digits as one number and counted. -/
structure Digits where
  value : Nat
  count : Nat
  point : Int
deriving Repr, DecidableEq

namespace Shortest

/-- The interval of reals that read as the double with bits `m`, doubled and in units;
the ends belong to it when the fraction is even. -/
structure Interval where
  low : Nat
  high : Nat
  closed : Bool

/-- The interval of a double with bits `m`: its ends are halfway to the neighbours. -/
def Interval.ofBits (m : Nat) : Interval where
  low := Binary64.unitsOfBits (m - 1) + Binary64.unitsOfBits m
  high := Binary64.unitsOfBits m + Binary64.unitsOfBits (m + 1)
  closed := m % 2 = 0

/-- The position of the point: the least `p` with the number below `10 ^ p`. Scaling by
`10 ^ 400` makes every positive double a whole number first. -/
def pointOf (units : Nat) : Int :=
  let scaled := (units * Nat.pow 10 400) >>> Binary64.unitShift
  ((Nat.toDigits 10 scaled).length : Int) - 400

/-- A whole number of steps `10 ^ k`, doubled and in units, as a fraction: numerator over
denominator. -/
def gridPoint (c : Nat) (k : Int) : Nat × Nat :=
  if 0 ≤ k then ((2 * c * Nat.pow 10 k.toNat) <<< Binary64.unitShift, 1)
  else ((2 * c) <<< Binary64.unitShift, Nat.pow 10 (-k).toNat)

/-- Whether a fraction is in the interval. -/
def Interval.has (i : Interval) (p : Nat × Nat) : Bool :=
  let low := i.low * p.2
  let high := i.high * p.2
  if i.closed then low ≤ p.1 && p.1 ≤ high else low < p.1 && p.1 < high

/-- The digits on the grid with `n` of them, if a grid point reads back. Only the two
points around the number need a look. -/
def onGrid? (i : Interval) (units : Nat) (point : Int) (n : Nat) : Option Nat :=
  let k := point - n
  let c :=
    if 0 ≤ k then units / (Nat.pow 10 k.toNat <<< Binary64.unitShift)
    else (units * Nat.pow 10 (-k).toNat) >>> Binary64.unitShift
  let below := gridPoint c k
  let above := gridPoint (c + 1) k
  match i.has below, i.has above with
  | true, false => some c
  | false, true => some (c + 1)
  | false, false => none
  | true, true =>
    let middle := 2 * units * below.2
    let down := middle - below.1
    let up := above.1 - middle
    if down < up then some c
    else if up < down then some (c + 1)
    else some (if c % 2 = 0 then c else c + 1)

/-- The least number of digits from `n` on whose grid has a point that reads back, within
`tries` attempts. -/
def search (i : Interval) (units : Nat) (point : Int) : (tries n : Nat) → Option (Nat × Nat)
  | 0, _ => none
  | tries + 1, n => match onGrid? i units point n with
    | some c => some (c, n)
    | none => search i units point tries (n + 1)

end Shortest

/-- The shortest digits of a positive finite double. Seventeen always suffice. A grid
point equal to the next power of ten is one digit longer than its grid. -/
def shortest (x : Binary64) : Digits :=
  let units := x.magnitude
  let point := Shortest.pointOf units
  match Shortest.search (.ofBits x.magnitudeBits) units point 17 1 with
  | none => ⟨0, 1, 0⟩
  | some (c, n) => if c = Nat.pow 10 n then ⟨1, 1, point + 1⟩ else ⟨c, n, point⟩

/-- How the digits of a double are set out. -/
structure Layout where
  /-- The points, counted as digits before the point, that are written positionally. -/
  positional : Int → Bool
  /-- What follows a number without fraction. -/
  wholeSuffix : String

/-- As numbers stand in documents and messages: positional between `0.00001` and
`10 ^ 16`, always with a fraction or an exponent. -/
def Layout.document : Layout := ⟨fun p => -4 ≤ p && p ≤ 16, ".0"⟩

/-- Always positional, a whole number without fraction. -/
def Layout.plain : Layout := ⟨fun _ => true, ""⟩

namespace Digits

/-- So many zeros. -/
private def zeros (n : Nat) : String := String.ofList (List.replicate n '0')

/-- The digits without trailing zeros, first to last. -/
def chars (d : Digits) : List Char :=
  ((Nat.toDigits 10 d.value).reverse.dropWhile (· == '0')).reverse

/-- The digits with a point at its place. -/
def positional (layout : Layout) (d : Digits) : String :=
  let cs := d.chars
  if d.point ≤ 0 then "0." ++ zeros (-d.point).toNat ++ String.ofList cs
  else
    let p := d.point.toNat
    if cs.length ≤ p then String.ofList cs ++ zeros (p - cs.length) ++ layout.wholeSuffix
    else String.ofList (cs.take p) ++ "." ++ String.ofList (cs.drop p)

/-- The characters of the positional layout, by where the point falls: before the digits, behind
them, or between two of them. -/
theorem toList_positional (layout : Layout) (d : Digits) :
    (d.positional layout).toList
      = if d.point ≤ 0 then '0' :: '.' :: (List.replicate (-d.point).toNat '0' ++ d.chars)
        else if d.chars.length ≤ d.point.toNat then
          d.chars ++ List.replicate (d.point.toNat - d.chars.length) '0'
            ++ layout.wholeSuffix.toList
        else d.chars.take d.point.toNat ++ '.' :: d.chars.drop d.point.toNat := by
  unfold positional zeros
  dsimp only
  split
  · simp
  · split <;> simp

/-- One digit, the others as fraction, and a signed exponent of ten. -/
def scientific (d : Digits) : String :=
  let exponent := d.point - 1
  let sign := if exponent < 0 then "-" else "+"
  let mantissa := match d.chars with
    | [] => "0"
    | [c] => String.ofList [c]
    | c :: rest => String.ofList (c :: '.' :: rest)
  mantissa ++ "e" ++ sign ++ toString exponent.natAbs

/-- The characters of the layout with an exponent. -/
theorem toList_scientific (d : Digits) :
    d.scientific.toList
      = (match d.chars with
          | [] => ['0']
          | [c] => [c]
          | c :: rest => c :: '.' :: rest)
        ++ 'e' :: (if d.point - 1 < 0 then '-' else '+')
          :: Nat.toDigits 10 (d.point - 1).natAbs := by
  unfold scientific
  dsimp only
  split <;> split <;> simp [Nat.toString_eq_repr]

end Digits

/-- The text of a double. -/
def Layout.write (layout : Layout) (x : Binary64) : String :=
  if x.isNaN then "NaN"
  else
    let sign := if x.isNegative then "-" else ""
    if !x.isFinite then sign ++ "inf"
    else if x.magnitudeBits = 0 then sign ++ "0" ++ layout.wholeSuffix
    else
      let d := shortest x
      sign ++ if layout.positional d.point then d.positional layout else d.scientific

end EventScript.Decimal
