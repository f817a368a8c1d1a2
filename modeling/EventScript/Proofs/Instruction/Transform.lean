/-
Transforms that write their result or do nothing. An `array`, `number`, `object` or `string`
instruction reads its variable, computes something from it and writes that to its output. Two
relations tell what it has to write: `Yields` names the result and the variables it is written
to, which are those there were except for what an instruction takes out of its source, and
`Lacks` names the one thing that is missing when there is no result. Between them they cover
every situation, and nothing is in both.

That settles the variables afterwards. Without a result they are the ones there were; with one
they are what writing the result at the output makes of the variables yielded. Where the output
lies, below the source, above it or in what was taken, is of no account: it is looked for in
the variables yielded.
-/
import EventScript.Machine.Action
import EventScript.Proofs.Instruction.Taking
import EventScript.Proofs.Json.InPlace
import EventScript.Proofs.Numeric.Exactness
import EventScript.Proofs.Numeric.Order

namespace EventScript

-- ================================================================ amounts

namespace Numeric

open Decimal (Binary64)

/-- Nothing can be divided by it: the integer zero, and the doubles of either sign that are worth
as much. -/
def IsZero : Numeric → Prop
  | int i _ => i = 0
  | float x => x.units = 0

/-- A double is worth zero when it is no units; a NaN is worth nothing. -/
theorem sameValue_zero_iff (x : Binary64) : x.sameValue .zero = true ↔ x.units = 0 := by
  have hzero : Binary64.units .zero = 0 := by decide
  have hnumber : Binary64.isNaN .zero = false := by decide
  unfold Binary64.sameValue Binary64.compare?
  rw [hnumber, hzero, Bool.or_false]
  cases hnan : x.isNaN with
  | false => simp
  | true =>
      have hlow : Binary64.exponentBit ≤ Binary64.infinityBits := by decide
      have hpast : Binary64.infinityBits < x.magnitudeBits := by simpa [Binary64.isNaN] using hnan
      have hpos : 0 < x.magnitude :=
        Binary64.unitsOfBits_pos (Nat.le_trans hlow (Nat.le_of_lt hpast))
      have hunits : x.units ≠ 0 := by
        unfold Binary64.units
        split <;> omega
      simp [hunits]

/-- The test before a division finds what nothing can be divided by. -/
theorem isZero_iff {n : Numeric} : n.toBinary64.sameValue .zero = true ↔ n.IsZero := by
  cases n with
  | float x => exact sameValue_zero_iff x
  | int i hi =>
      by_cases h : i = 0
      · subst h
        have hzero : (Binary64.ofInt 0).sameValue .zero = true := by decide
        exact iff_of_true hzero rfl
      · have hne : (Binary64.ofInt i).sameValue .zero = false := Binary64.sameValue_ofInt_zero h
        exact iff_of_false (by simp [toBinary64, hne]) h

/-- An operation is without a result when it divides by zero. -/
theorem apply_eq_none_iff {operation : Operation} {a b : Numeric} :
    apply operation a b = none ↔ operation = .divide ∧ b.IsZero := by
  rw [← isZero_iff]
  unfold apply
  split
  case isTrue h => simpa using h
  case isFalse h => simpa using h

/-- An amount that is no number cannot be kept. -/
theorem toJson?_eq_none_iff {n : Numeric} : n.toJson? = none ↔ ¬ n.IsFinite := by
  cases n with
  | int i hi => simp [toJson?, IsFinite]
  | float x =>
      simp only [toJson?, Json.Number.ofBinary64?, IsFinite]
      split
      case isTrue h => simp [h]
      case isFalse h => simp [h]

end Numeric

/-- Variables are not changed by putting back what is read. -/
theorem Globals.overwrite_self {g : Globals} {p : String} {c : Json} (h : g.getPath? p = some c) :
    g.overwrite p c = g := by
  unfold overwrite
  rw [Json.overwrite?_self h]
  rfl

namespace Json

/-- The items, when the value is a list. -/
def items? : Json → Option (List Json)
  | array items => some items
  | _ => none

/-- The members, when the value is an object. -/
def members? : Json → Option Object
  | object members => some members
  | _ => none

theorem items?_eq_some_iff {v : Json} {items : List Json} :
    v.items? = some items ↔ v = array items := by
  cases v <;> simp [items?]

theorem members?_eq_some_iff {v : Json} {members : Object} :
    v.members? = some members ↔ v = object members := by
  cases v <;> simp [members?]

theorem asString?_eq_some_iff {v : Json} {s : String} : v.asString? = some s ↔ v = string s := by
  cases v <;> simp [asString?]

end Json

namespace Instruction

variable {g g' : Globals} {v : Json} {s : Shortfall}

-- ============================================================ the variable

section Variable

variable {α β : Type} {source : Option Json} {kind : String} {as? : Json → Option α}
  {next : α → Except Shortfall β} {Misses : α → Shortfall → Prop} {b : β}

/-- A transform that works on one kind of value goes on from what its variable holds. -/
def onKind (source : Option Json) (kind : String) (as? : Json → Option α)
    (next : α → Except Shortfall β) : Except Shortfall β :=
  match source with
  | none => .error .unresolved
  | some v => match as? v with
    | none => .error (.notOfKind kind)
    | some x => next x

/-- What a transform on one kind of value lacks: its variable, a value of the kind in it, or what
it misses in that value. -/
inductive Lacks (source : Option Json) (kind : String) (as? : Json → Option α)
    (Misses : α → Shortfall → Prop) : Shortfall → Prop
  | unresolved : source = none → Lacks source kind as? Misses .unresolved
  | otherKind {v : Json} : source = some v → as? v = none →
      Lacks source kind as? Misses (.notOfKind kind)
  | missed {v : Json} {x : α} {s : Shortfall} : source = some v → as? v = some x → Misses x s →
      Lacks source kind as? Misses s

/-- A transform yields something where its variable has a value of the kind and it goes on from
there. -/
theorem onKind_eq_ok_iff :
    onKind source kind as? next = .ok b ↔
      ∃ v x, source = some v ∧ as? v = some x ∧ next x = .ok b := by
  unfold onKind
  cases source with
  | none => simp
  | some v => cases h : as? v <;> simp [h]

/-- A transform lacks what it lacks by itself, or what it misses in the value. -/
theorem onKind_eq_error_iff (hnext : ∀ x s, next x = .error s ↔ Misses x s) :
    onKind source kind as? next = .error s ↔ Lacks source kind as? Misses s := by
  unfold onKind
  constructor
  · intro h
    cases source with
    | none =>
        cases h
        exact .unresolved rfl
    | some v =>
        cases has : as? v with
        | none =>
            simp only [has, Except.error.injEq] at h
            subst h
            exact .otherKind rfl has
        | some x =>
            simp only [has] at h
            exact .missed rfl has ((hnext x s).mp h)
  · intro h
    cases h with
    | unresolved hsource => simp only [hsource]
    | otherKind hsource has => simp only [hsource, has]
    | missed hsource has hmisses => simp only [hsource, has, (hnext _ _).mpr hmisses]

end Variable

-- ================================================================== lists

namespace ArrayAccess

variable {i : ArrayAccess} {operation : Operation} {items : List Json}

/-- The instruction yields a value, and leaves these variables for it. -/
inductive Yields (i : ArrayAccess) (g : Globals) : Json → Globals → Prop
  | length {items : List Json} : i.operation = .length →
      g.getPath? i.variableName = some (.array items) → Yields i g (.ofNat items.length) g
  | item {part : Json} {g' : Globals} : i.Takes g part g' → Yields i g part g'

/-- The list has no such item: the index is past either end, or the list is empty. -/
inductive Misses (i : ArrayAccess) (items : List Json) : Shortfall → Prop
  | position : i.operation = .takeAt →
      i.index.getD 0 < -(items.length : Int) ∨ (items.length : Int) ≤ i.index.getD 0 →
      Misses i items (.nothing i.operation.label)
  | item : i.operation = .takeLast ∨ i.operation = .takeFirst → items = [] →
      Misses i items (.nothing i.operation.label)

/-- No position is meant by an index that is out of the list at either end. -/
theorem position?_eq_none_iff {index : Int} {count : Nat} :
    position? index count = none ↔ index < -(count : Int) ∨ (count : Int) ≤ index := by
  simp only [position?, ite_eq_right_iff, reduceCtorEq, imp_false]
  split <;> omega

theorem take?_eq_none_iff {k : Nat} : take? items k = none ↔ items.length ≤ k := by
  simp [take?]

/-- Nothing comes of an index out of the list, and of taking from a list without items. -/
theorem apply_eq_none_iff {index : Option Int} :
    apply operation index items = none ↔
      (operation = .takeAt
        ∧ (index.getD 0 < -(items.length : Int) ∨ (items.length : Int) ≤ index.getD 0))
      ∨ (operation = .takeLast ∨ operation = .takeFirst) ∧ items = [] := by
  cases operation with
  | length => simp [apply]
  | takeAt =>
      -- a position there is one of an item
      have hitem : ∀ k, position? (index.getD 0) items.length = some k → take? items k ≠ none := by
        intro k hk hnone
        exact absurd (position?_eq_some_iff.mp hk).1 (Nat.not_lt.mpr (take?_eq_none_iff.mp hnone))
      simp only [apply, Option.bind_eq_none_iff, reduceCtorEq, or_self, false_and, or_false,
        true_and, ← position?_eq_none_iff]
      constructor
      · intro h
        rw [Option.eq_none_iff_forall_not_mem]
        exact fun k hk => hitem k hk (h k hk)
      · intro h k hk
        rw [h] at hk
        cases hk
  | takeLast =>
      simp only [apply, take?_eq_none_iff, reduceCtorEq, false_and, or_false, true_and, false_or]
      rw [← List.length_eq_zero_iff]
      omega
  | takeFirst =>
      simp only [apply, take?_eq_none_iff, reduceCtorEq, false_and, or_true, true_and, false_or]
      rw [Nat.le_zero, List.length_eq_zero_iff]

/-- From a list. -/
def next (i : ArrayAccess) (g : Globals) (items : List Json) : Except Shortfall (Json × Globals) :=
  match apply i.operation i.index items with
  | some (v, rest) => .ok (v, g.overwrite i.variableName (.array rest))
  | none => .error (.nothing i.operation.label)

/-- The result is that of a transform on lists. -/
theorem result_eq_onKind (i : ArrayAccess) (g : Globals) :
    i.result g = onKind (g.getPath? i.variableName) "an array" Json.items? (i.next g) := by
  unfold result onKind
  cases g.getPath? i.variableName with
  | none => rfl
  | some v => cases v <;> rfl

/-- What is lacking is what the list is said to miss. -/
theorem next_eq_error_iff : i.next g items = .error s ↔ i.Misses items s := by
  unfold next
  constructor
  · intro h
    cases happly : apply i.operation i.index items with
    | some done => simp [happly] at h
    | none =>
        simp only [happly, Except.error.injEq] at h
        subst h
        rcases apply_eq_none_iff.mp happly with ⟨hop, hindex⟩ | ⟨hop, hitems⟩
        · exact .position hop hindex
        · exact .item hop hitems
  · intro h
    cases h with
    | position hop hindex => simp only [apply_eq_none_iff.mpr (Or.inl ⟨hop, hindex⟩)]
    | item hop hitems => simp only [apply_eq_none_iff.mpr (Or.inr ⟨hop, hitems⟩)]

/-- What the code yields is what the instruction is said to yield. -/
theorem yields_iff : i.result g = .ok (v, g') ↔ i.Yields g v g' := by
  by_cases hop : i.operation = .length
  · rw [result_eq_onKind, onKind_eq_ok_iff]
    constructor
    · intro h
      obtain ⟨source, items, hsource, hitems, hnext⟩ := h
      obtain rfl := Json.items?_eq_some_iff.mp hitems
      simp only [next, hop, apply, Globals.overwrite_self hsource, Except.ok.injEq,
        Prod.mk.injEq] at hnext
      obtain ⟨rfl, rfl⟩ := hnext
      exact .length hop hsource
    · intro h
      cases h with
      | length _ hsource =>
          refine ⟨_, _, hsource, rfl, ?_⟩
          simp only [next, hop, apply, Globals.overwrite_self hsource]
      | item htakes =>
          obtain ⟨before, after, -, hpicks, -⟩ := htakes
          rw [hop] at hpicks
          cases hpicks
  · rw [result_eq_ok_iff hop]
    constructor
    · exact .item
    · intro h
      cases h with
      | length hlength => exact absurd hlength hop
      | item htakes => exact htakes

end ArrayAccess

-- ================================================================ objects

namespace ObjectAccess

variable {i : ObjectAccess} {members : Json.Object}

/-- The instruction yields a value, and leaves these variables for it. -/
inductive Yields (i : ObjectAccess) (g : Globals) : Json → Globals → Prop
  | names {members : Json.Object} : i.operation = .keys →
      g.getPath? i.variableName = some (.object members) →
      Yields i g (.array (members.keys.map .string)) g
  | values {members : Json.Object} : i.operation = .values →
      g.getPath? i.variableName = some (.object members) → Yields i g (.array members.values) g
  | value {members : Json.Object} {v : Json} : i.operation = .value →
      g.getPath? i.variableName = some (.object members) →
      Table.get? (i.key.getD "") members = some v → Yields i g v g
  | member {part : Json} {g' : Globals} : i.operation = .delete → i.Takes g part g' →
      Yields i g part g'

/-- The object has no member of the name that the operation is about. -/
inductive Misses (i : ObjectAccess) (members : Json.Object) : Shortfall → Prop
  | member : i.operation.needsKey = true → i.key.getD "" ∉ members.keys →
      Misses i members (.noKey (i.key.getD ""))

/-- Nothing comes of a key that the operation needs and the object does not have. -/
theorem apply_eq_none_iff {operation : Operation} {key : String} :
    apply operation key members = none ↔ operation.needsKey = true ∧ key ∉ members.keys := by
  rw [← Table.isSome_get?_iff]
  cases operation <;> simp [apply, Operation.needsKey]

/-- From an object. -/
def next (i : ObjectAccess) (g : Globals) (members : Json.Object) :
    Except Shortfall (Json × Globals) :=
  match apply i.operation (i.key.getD "") members with
  | some (v, rest) => .ok (v, g.overwrite i.variableName (.object rest))
  | none => .error (.noKey (i.key.getD ""))

/-- The result is that of a transform on objects. -/
theorem result_eq_onKind (i : ObjectAccess) (g : Globals) :
    i.result g = onKind (g.getPath? i.variableName) "an object" Json.members? (i.next g) := by
  unfold result onKind
  cases g.getPath? i.variableName with
  | none => rfl
  | some v => cases v <;> rfl

/-- What is lacking is what the object is said to miss. -/
theorem next_eq_error_iff : i.next g members = .error s ↔ i.Misses members s := by
  unfold next
  constructor
  · intro h
    cases happly : apply i.operation (i.key.getD "") members with
    | some done => simp [happly] at h
    | none =>
        simp only [happly, Except.error.injEq] at h
        subst h
        obtain ⟨hneeds, hnot⟩ := apply_eq_none_iff.mp happly
        exact .member hneeds hnot
  · intro h
    cases h with
    | member hneeds hnot => simp only [apply_eq_none_iff.mpr ⟨hneeds, hnot⟩]

/-- What the code yields is what the instruction is said to yield. -/
theorem yields_iff : i.result g = .ok (v, g') ↔ i.Yields g v g' := by
  constructor
  · intro h
    by_cases hop : i.operation = .delete
    · exact .member hop ((result_eq_ok_iff hop).mp h)
    · rw [result_eq_onKind, onKind_eq_ok_iff] at h
      obtain ⟨source, members, hsource, hmembers, hnext⟩ := h
      obtain rfl := Json.members?_eq_some_iff.mp hmembers
      unfold next at hnext
      cases hop' : i.operation with
      | delete => exact absurd hop' hop
      | keys =>
          simp only [hop', apply, Globals.overwrite_self hsource, Except.ok.injEq,
            Prod.mk.injEq] at hnext
          obtain ⟨rfl, rfl⟩ := hnext
          exact .names hop' hsource
      | values =>
          simp only [hop', apply, Globals.overwrite_self hsource, Except.ok.injEq,
            Prod.mk.injEq] at hnext
          obtain ⟨rfl, rfl⟩ := hnext
          exact .values hop' hsource
      | value =>
          cases hget : Table.get? (i.key.getD "") members with
          | none => simp [hop', apply, hget] at hnext
          | some w =>
              simp only [hop', apply, hget, Option.map_some, Globals.overwrite_self hsource,
                Except.ok.injEq, Prod.mk.injEq] at hnext
              obtain ⟨rfl, rfl⟩ := hnext
              exact .value hop' hsource hget
  · intro h
    cases h with
    | member hop htakes => exact (result_eq_ok_iff hop).mpr htakes
    | names hop hsource => simp only [result, hsource, hop, apply, Globals.overwrite_self hsource]
    | values hop hsource => simp only [result, hsource, hop, apply, Globals.overwrite_self hsource]
    | value hop hsource hget =>
        simp only [result, hsource, hop, apply, hget, Option.map_some,
          Globals.overwrite_self hsource]

end ObjectAccess

-- ============================================================== computing

namespace Calculation

variable {i : Calculation} {input : Numeric}

/-- The variable holds the amount. -/
def Input (i : Calculation) (g : Globals) (input : Numeric) : Prop :=
  ∃ source, g.getPath? i.variableName = some source ∧ Numeric.ofJson? source = some input

/-- The instruction yields a value, and leaves these variables for it. -/
inductive Yields (i : Calculation) (g : Globals) : Json → Globals → Prop
  | integer {input : Numeric} {n : Int} : i.operation = .bigint → i.Input g input →
      input.truncate? = some n → Yields i g (.string (toString n)) g
  | amount {input operand amount : Numeric} {v : Json} : i.operation ≠ .bigint →
      i.Input g input → i.operandIn g = some operand →
      Numeric.apply i.operation input operand = some amount → amount.toJson? = some v →
      Yields i g v g

/-- The amount has no integer part that is kept, there is no second amount, it is a zero to
divide by, or the result is no number. -/
inductive Misses (i : Calculation) (g : Globals) (input : Numeric) : Shortfall → Prop
  | integer : i.operation = .bigint → input.truncate? = none → Misses i g input .untruncatable
  | operand : i.operation ≠ .bigint → i.operandIn g = none → Misses i g input .operandNotNumeric
  | quotient {operand : Numeric} : i.operation = .divide → i.operandIn g = some operand →
      operand.IsZero → Misses i g input .divisionByZero
  | number {operand amount : Numeric} : i.operation ≠ .bigint → i.operandIn g = some operand →
      Numeric.apply i.operation input operand = some amount → ¬ amount.IsFinite →
      Misses i g input (.notFinite i.operation.label)

/-- From an amount. -/
def next (i : Calculation) (g : Globals) (input : Numeric) : Except Shortfall (Json × Globals) :=
  (i.compute g input).map fun v => (v, g)

/-- The result is that of a transform on amounts. -/
theorem result_eq_onKind (i : Calculation) (g : Globals) :
    i.result g = onKind (g.getPath? i.variableName) "numeric" Numeric.ofJson? (i.next g) := by
  unfold result onKind
  cases g.getPath? i.variableName with
  | none => rfl
  | some v => cases h : Numeric.ofJson? v <;> simp [h, next]

/-- What is lacking is what the amount is said to miss: its operand, or a result that can be
kept. -/
theorem next_eq_error_iff : i.next g input = .error s ↔ i.Misses g input s := by
  unfold next compute
  rw [Except.map_eq_error]
  -- bigint reads no operand, so the other refusals are not open to it
  by_cases hop : i.operation = .bigint
  · rw [if_pos hop]
    constructor
    · intro h
      cases hn : input.truncate? with
      | some n => simp [hn] at h
      | none =>
          simp only [hn, Except.error.injEq] at h
          subst h
          exact .integer hop hn
    · intro h
      cases h with
      | integer _ hn => simp only [hn]
      | operand hother => exact absurd hop hother
      | quotient hdivide => exact absurd (hop.symm.trans hdivide) (by decide)
      | number hother => exact absurd hop hother
  · rw [if_neg hop]
    constructor
    · intro h
      cases hoperand : i.operandIn g with
      | none =>
          simp only [hoperand, Except.error.injEq] at h
          subst h
          exact .operand hop hoperand
      | some operand =>
          cases hamount : Numeric.apply i.operation input operand with
          | none =>
              simp only [hoperand, hamount, Except.error.injEq] at h
              subst h
              obtain ⟨hdivide, hzero⟩ := Numeric.apply_eq_none_iff.mp hamount
              exact .quotient hdivide hoperand hzero
          | some amount =>
              cases hv : amount.toJson? with
              | some v => simp [hoperand, hamount, hv] at h
              | none =>
                  simp only [hoperand, hamount, hv, Except.error.injEq] at h
                  subst h
                  exact .number hop hoperand hamount (Numeric.toJson?_eq_none_iff.mp hv)
    · intro h
      cases h with
      | integer hbigint => exact absurd hbigint hop
      | operand _ hoperand => simp only [hoperand]
      | quotient hdivide hoperand hzero =>
          simp only [hoperand, Numeric.apply_eq_none_iff.mpr ⟨hdivide, hzero⟩]
      | number _ hoperand hamount hfinite =>
          simp only [hoperand, hamount, Numeric.toJson?_eq_none_iff.mpr hfinite]

/-- What the code yields is what the instruction is said to yield. -/
theorem yields_iff : i.result g = .ok (v, g') ↔ i.Yields g v g' := by
  rw [result_eq_onKind, onKind_eq_ok_iff]
  constructor
  · intro h
    obtain ⟨source, input, hsource, hinput, hnext⟩ := h
    have hin : i.Input g input := ⟨source, hsource, hinput⟩
    obtain ⟨w, hw, heq⟩ := Except.map_eq_ok.mp hnext
    cases heq
    unfold compute at hw
    by_cases hop : i.operation = .bigint
    · rw [if_pos hop] at hw
      cases hn : input.truncate? with
      | none => simp [hn] at hw
      | some n =>
          simp only [hn, Except.ok.injEq] at hw
          subst hw
          exact .integer hop hin hn
    · rw [if_neg hop] at hw
      cases hoperand : i.operandIn g with
      | none => simp [hoperand] at hw
      | some operand =>
          cases hamount : Numeric.apply i.operation input operand with
          | none => simp [hoperand, hamount] at hw
          | some amount =>
              cases hv : amount.toJson? with
              | none => simp [hoperand, hamount, hv] at hw
              | some u =>
                  simp only [hoperand, hamount, hv, Except.ok.injEq] at hw
                  subst hw
                  exact .amount hop hin hoperand hamount hv
  · intro h
    cases h with
    | integer hop hinput hn =>
        obtain ⟨source, hsource, hamount⟩ := hinput
        exact ⟨source, _, hsource, hamount, by simp [next, compute, hop, hn, Except.map]⟩
    | amount hop hinput hoperand happly hv =>
        obtain ⟨source, hsource, hamount⟩ := hinput
        exact ⟨source, _, hsource, hamount,
          by simp [next, compute, hop, hoperand, happly, hv, Except.map]⟩

end Calculation

-- ================================================================== texts

namespace TextTransform

variable {i : TextTransform} {text : String}

/-- The instruction yields a value, and leaves these variables for it. -/
inductive Yields (i : TextTransform) (g : Globals) : Json → Globals → Prop
  | text {text : String} {v : Json} : g.getPath? i.variableName = some (.string text) →
      apply i.operation i.separator text = some v → Yields i g v g

/-- The text does not convert: it spells no amount, or one whose integer part is not kept. -/
def Operation.Refuses (text : String) : Operation → Prop
  | bigint => ∀ n, Numeric.parse? text = some n → n.truncate? = none
  | int => ∀ n, Numeric.parse? text = some n → n.truncate? = none
  | number => Numeric.parse? text = none
  | _ => False

/-- What the instruction misses in a text: that it converts. -/
inductive Misses (i : TextTransform) (text : String) : Shortfall → Prop
  | conversion : i.operation.Refuses text → Misses i text (.inapplicable i.operation.label)

/-- Nothing comes of a text that does not convert. -/
theorem apply_eq_none_iff {operation : Operation} {separator : Option String} :
    apply operation separator text = none ↔ operation.Refuses text := by
  cases operation with
  | bigint => simp [apply, Operation.Refuses, Option.bind_eq_none_iff]
  | int => simp [apply, Operation.Refuses, Option.bind_eq_none_iff]
  | number =>
      simp only [apply, Operation.Refuses, Option.bind_eq_none_iff]
      constructor
      · intro h
        rw [Option.eq_none_iff_forall_not_mem]
        intro n hn
        exact Numeric.toJson?_eq_none_iff.mp (h n hn) (Numeric.isFinite_of_parse? hn)
      · intro h n hn
        rw [h] at hn
        cases hn
  | _ => simp [apply, Operation.Refuses]

/-- From a text. -/
def next (i : TextTransform) (g : Globals) (text : String) : Except Shortfall (Json × Globals) :=
  match apply i.operation i.separator text with
  | some v => .ok (v, g)
  | none => .error (.inapplicable i.operation.label)

/-- The result is that of a transform on texts. -/
theorem result_eq_onKind (i : TextTransform) (g : Globals) :
    i.result g = onKind (g.getPath? i.variableName) "a string" Json.asString? (i.next g) := by
  unfold result onKind
  cases g.getPath? i.variableName with
  | none => rfl
  | some v => cases v <;> rfl

/-- What is lacking is what the text is said to miss. -/
theorem next_eq_error_iff : i.next g text = .error s ↔ i.Misses text s := by
  unfold next
  constructor
  · intro h
    cases happly : apply i.operation i.separator text with
    | some v => simp [happly] at h
    | none =>
        simp only [happly, Except.error.injEq] at h
        subst h
        exact .conversion (apply_eq_none_iff.mp happly)
  · intro h
    cases h with
    | conversion hrefuses => simp only [apply_eq_none_iff.mpr hrefuses]

/-- What the code yields is what the instruction is said to yield. -/
theorem yields_iff : i.result g = .ok (v, g') ↔ i.Yields g v g' := by
  rw [result_eq_onKind, onKind_eq_ok_iff]
  constructor
  · intro h
    obtain ⟨source, text, hsource, htext, hnext⟩ := h
    obtain rfl := Json.asString?_eq_some_iff.mp htext
    unfold next at hnext
    cases happly : apply i.operation i.separator text with
    | none => simp [happly] at hnext
    | some w =>
        simp only [happly, Except.ok.injEq, Prod.mk.injEq] at hnext
        obtain ⟨rfl, rfl⟩ := hnext
        exact .text hsource happly
  · intro h
    cases h with
    | text hsource happly => exact ⟨_, _, hsource, rfl, by simp only [next, happly]⟩

end TextTransform

-- ============================================================ transforms

/-- What a transform does to the variables there are. -/
structure Transforms (g : Globals) (output : String) (Yields : Json → Globals → Prop)
    (Lacks : Shortfall → Prop) (after : Globals) : Prop where
  /-- There is a result, or something is missing. -/
  decided : (∃ v g', Yields v g') ∨ ∃ s, Lacks s
  /-- With something missing the variables are as they were. -/
  rests : ∀ s, Lacks s → after = g
  /-- A result is written to the variables yielded. -/
  writes : ∀ v g' g'', Yields v g' → g'.setPath output v = .ok g'' → after = g''
  /-- Where it cannot be written, these are the variables. -/
  refused : ∀ v g' e, Yields v g' → g'.setPath output v = .error e → after = g'
  /-- There is not both a result and something missing. -/
  apart : ∀ v g' s, Yields v g' → ¬ Lacks s
  single : ∀ v g' w g'', Yields v g' → Yields w g'' → v = w ∧ g' = g''

/-- Relations that tell results and shortfalls tell what becomes of the variables. -/
theorem transforms_ofResult {result : Except Shortfall (Json × Globals)}
    {Yields : Json → Globals → Prop} {Lacks : Shortfall → Prop}
    (hok : ∀ v g', result = .ok (v, g') ↔ Yields v g')
    (herror : ∀ s, result = .error s ↔ Lacks s) (instruction variableName output : String) :
    Transforms g output Yields Lacks
      (Outcome.ofResult g instruction variableName output result).globals where
  decided := by
    cases result with
    | ok done => exact Or.inl ⟨done.1, done.2, (hok _ _).mp rfl⟩
    | error s => exact Or.inr ⟨s, (herror s).mp rfl⟩
  rests s hs := by
    rw [(herror s).mpr hs]
    rfl
  writes v g' g'' hv hset := by
    rw [(hok v g').mpr hv]
    exact congrArg Outcome.globals (Outcome.write_of_ok hset)
  refused v g' e hv hset := by
    rw [(hok v g').mpr hv]
    exact congrArg Outcome.globals (Outcome.write_of_error hset)
  apart v g' s hv hs := by
    have h := (hok v g').mpr hv
    rw [(herror s).mpr hs] at h
    cases h
  single v g' w g'' hv hw := by
    have h := (hok v g').mpr hv
    rw [(hok w g'').mpr hw] at h
    cases h
    exact ⟨rfl, rfl⟩

/-- Transforms write their result or do nothing, in whatever state a machine performs them. Without
a result the variables are the same; otherwise they are what writing the result makes of them,
or of what an `array` or `object` instruction leaves of them that takes the result out of its
source. -/
theorem transforms_write_or_rest (m : Machine) :
    (∀ i : ArrayAccess, Transforms m.globals i.output (i.Yields m.globals)
      (Lacks (m.getPath? i.variableName) "an array" Json.items? i.Misses)
      ((Action.array i).perform m).1.globals)
    ∧ (∀ i : Calculation, Transforms m.globals i.output (i.Yields m.globals)
      (Lacks (m.getPath? i.variableName) "numeric" Numeric.ofJson? (i.Misses m.globals))
      ((Action.number i).perform m).1.globals)
    ∧ (∀ i : ObjectAccess, Transforms m.globals i.output (i.Yields m.globals)
      (Lacks (m.getPath? i.variableName) "an object" Json.members? i.Misses)
      ((Action.object i).perform m).1.globals)
    ∧ ∀ i : TextTransform, Transforms m.globals i.output (i.Yields m.globals)
      (Lacks (m.getPath? i.variableName) "a string" Json.asString? i.Misses)
      ((Action.string i).perform m).1.globals := by
  refine ⟨fun i => ?_, fun i => ?_, fun i => ?_, fun i => ?_⟩
  · refine transforms_ofResult (fun v g' => ArrayAccess.yields_iff) (fun s => ?_) ..
    rw [i.result_eq_onKind]
    exact onKind_eq_error_iff fun items s => ArrayAccess.next_eq_error_iff
  · refine transforms_ofResult (fun v g' => Calculation.yields_iff) (fun s => ?_) ..
    rw [i.result_eq_onKind]
    exact onKind_eq_error_iff fun input s => Calculation.next_eq_error_iff
  · refine transforms_ofResult (fun v g' => ObjectAccess.yields_iff) (fun s => ?_) ..
    rw [i.result_eq_onKind]
    exact onKind_eq_error_iff fun members s => ObjectAccess.next_eq_error_iff
  · refine transforms_ofResult (fun v g' => TextTransform.yields_iff) (fun s => ?_) ..
    rw [i.result_eq_onKind]
    exact onKind_eq_error_iff fun text s => TextTransform.next_eq_error_iff

/-- The first item goes into the second, which is the first by then; and an amount that is divided
by a zero of text stays. -/
theorem first_item_into_second :
    let g : Globals := ⟨[("list", .array [.null, .array []]), ("n", .string "7")]⟩
    let m : Machine := { Machine.new {} {} with globals := g }
    let i : ArrayAccess := ⟨"list", .takeFirst, none, "list.0.0"⟩
    let j : Calculation := ⟨"n", .divide, some (.string "0"), none, "list"⟩
    i.Yields g .null (g.overwrite "list" (.array [.array []]))
      ∧ ((Action.array i).perform m).1.globals
        = ⟨[("list", .array [.array [.null]]), ("n", .string "7")]⟩
      ∧ Lacks (m.getPath? "n") "numeric" Numeric.ofJson? (j.Misses g) .divisionByZero
      ∧ ((Action.number j).perform m).1.globals = g := by
  intro g m i j
  obtain ⟨harray, hnumber, -⟩ := transforms_write_or_rest m
  have hyields : i.Yields g .null (g.overwrite "list" (.array [.array []])) :=
    .item ⟨[], [.array []], by dsimp only [g, i]; rfl, rfl, rfl⟩
  have hset : (g.overwrite "list" (.array [.array []])).setPath "list.0.0" .null
      = .ok ⟨[("list", .array [.array [.null]]), ("n", .string "7")]⟩ := by
    dsimp only [g]
    rfl
  have hzero : Numeric.ofJson? (.string "0") = some (.int 0 (by decide)) := by decide
  have hseven : Numeric.ofJson? (.string "7") = some (.int 7 (by decide)) := by decide
  have hlacks : Lacks (m.getPath? "n") "numeric" Numeric.ofJson? (j.Misses g) .divisionByZero :=
    .missed (by dsimp only [m, g]; rfl) hseven (.quotient rfl hzero rfl)
  exact ⟨hyields, (harray i).writes _ _ _ hyields hset, hlacks, (hnumber j).rests _ hlacks⟩

end Instruction
end EventScript
