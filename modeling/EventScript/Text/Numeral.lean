/-
Whole numbers in text: an optional sign and digits of a radix, nothing else. Readers of
settings, of path positions, of amounts and of document scalars differ only in the
radix, the signs they admit and the range.
-/
namespace EventScript.Text

/-- The value of a digit; letters of either case stand for ten and up. -/
def digitValue? (radix : Nat) (c : Char) : Option Nat :=
  let n := c.toNat
  let v :=
    if 0x30 ≤ n && n ≤ 0x39 then n - 0x30
    else if 0x61 ≤ n && n ≤ 0x7A then n - 0x61 + 10
    else if 0x41 ≤ n && n ≤ 0x5A then n - 0x41 + 10
    else radix
  if v < radix then some v else none

/-- The digits read after a part already read as `acc`; `none` at a character that is
no digit. -/
def digitsFrom? (radix acc : Nat) : List Char → Option Nat
  | [] => some acc
  | c :: rest => do
    let v ← digitValue? radix c
    digitsFrom? radix (acc * radix + v) rest

/-- One or more digits. -/
def natural? (radix : Nat) : List Char → Option Nat
  | [] => none
  | cs => digitsFrom? radix 0 cs

/-- Digits after an optional plus sign. -/
def unsigned? (radix : Nat) : List Char → Option Nat
  | '+' :: rest => natural? radix rest
  | cs => natural? radix cs

/-- Digits after an optional sign. -/
def signed? (radix : Nat) : List Char → Option Int
  | '+' :: rest => (natural? radix rest).map Int.ofNat
  | '-' :: rest => (natural? radix rest).map fun n => -(n : Int)
  | cs => (natural? radix cs).map Int.ofNat

/-- An unsigned decimal numeral below `limit`. -/
def unsignedBelow? (limit : Nat) (cs : List Char) : Option Nat :=
  (unsigned? 10 cs).filter (· < limit)

end EventScript.Text
