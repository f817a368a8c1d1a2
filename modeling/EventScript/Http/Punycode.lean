/-
The ASCII form of a label of a domain name. The characters beyond ASCII are
taken in ascending order; each is written as the number of places counted since the one
before, in digits whose weights adapt to the numbers met.
-/

namespace EventScript.Http.Punycode

/-- The digit for a value below 36: letters first. -/
def digit (d : Nat) : Char :=
  if d < 26 then Char.ofNat (0x61 + d) else Char.ofNat (0x30 + (d - 26))

/-- The threshold at the digit position `k`. -/
def threshold (k bias : Nat) : Nat :=
  if k ≤ bias then 1 else if bias + 26 ≤ k then 26 else k - bias

/-- A threshold is at least one, so that the digits come to an end. -/
theorem threshold_pos (k bias : Nat) : 0 < threshold k bias := by
  unfold threshold
  split
  · omega
  · split <;> omega

/-- A number in digits of varying weight, least first. -/
def digits (bias k q : Nat) : List Char :=
  let t := threshold k bias
  if q < t then [digit q]
  else digit (t + (q - t) % (36 - t)) :: digits bias (k + 36) ((q - t) / (36 - t))
termination_by q
decreasing_by
  have := threshold_pos k bias
  calc (q - threshold k bias) / (36 - threshold k bias)
      ≤ q - threshold k bias := Nat.div_le_self _ _
    _ < q := by omega

/-- A number divided by 35 until it is at most 455, with 36 for every division. -/
def damp (delta k : Nat) : Nat × Nat :=
  if 455 < delta then damp (delta / 35) (k + 36) else (delta, k)
termination_by delta
decreasing_by exact Nat.div_lt_self (by omega) (by omega)

/-- The bias after a number has been written. -/
def adapt (delta count : Nat) (first : Bool) : Nat :=
  let d := if first then delta / 700 else delta / 2
  let (d, k) := damp (d + d / count) 0
  k + 36 * d / (d + 38)

/-- What has been written, and the state of the counting. -/
structure State where
  out : List Char
  delta : Nat
  bias : Nat
  /-- The number of characters written. -/
  count : Nat

/-- Passes over one character of the label while `m` is the code point being written;
`basic` is the number of ASCII characters. -/
def State.pass (basic m : Nat) (s : State) (c : Char) : State :=
  if c.toNat < m then { s with delta := s.delta + 1 }
  else if c.toNat = m then
    { out := s.out ++ digits s.bias 36 s.delta
      delta := 0
      bias := adapt s.delta (s.count + 1) (s.count == basic)
      count := s.count + 1 }
  else s

/-- Writes the code points of the list, which ascend from `n`. -/
def State.write (label : List Char) (basic n : Nat) (s : State) : List Nat → State
  | [] => s
  | m :: rest =>
    let s := { s with delta := s.delta + (m - n) * (s.count + 1) }
    let s := label.foldl (State.pass basic m) s
    State.write label basic (m + 1) { s with delta := s.delta + 1 } rest

/-- A number put into an ascending list unless it is there. -/
def place (x : Nat) : List Nat → List Nat
  | [] => [x]
  | y :: rest => if x < y then x :: y :: rest else if x = y then y :: rest else y :: place x rest

/-- The encoded label, without the mark that it is encoded. -/
def encode (label : List Char) : List Char :=
  let ascii := label.filter fun c => c.toNat < 0x80
  let beyond := (label.filter fun c => 0x80 ≤ c.toNat).foldr (fun c l => place c.toNat l) []
  let start := if ascii.isEmpty then [] else ascii ++ ['-']
  (State.write label ascii.length 0x80 ⟨start, 0, 72, ascii.length⟩ beyond).out

end EventScript.Http.Punycode
