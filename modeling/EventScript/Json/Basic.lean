/-
JSON values. An object is the table of its members, so they stand in the order of their
names by code points, which is the order every answer, message and request body shows.
-/
import EventScript.Json.Number
import EventScript.Table

namespace EventScript

/-- A JSON value. -/
inductive Json where
  | null
  | bool (b : Bool)
  | number (n : Json.Number)
  | string (s : String)
  | array (items : List Json)
  | object (members : List (String × Json))
deriving Inhabited

namespace Json

/-- The members of an object. -/
abbrev Object := Table Json

mutual
/-- Equality of documents, kind by kind. -/
def same : Json → Json → Bool
  | null, null => true
  | bool a, bool b => a == b
  | number a, number b => a.same b
  | string a, string b => a == b
  | array a, array b => sameItems a b
  | object a, object b => sameMembers a b
  | _, _ => false

/-- Whether lists are the same, item by item. -/
def sameItems : List Json → List Json → Bool
  | [], [] => true
  | a :: as, b :: bs => same a b && sameItems as bs
  | _, _ => false

/-- Whether members are the same, in the same order. -/
def sameMembers : List (String × Json) → List (String × Json) → Bool
  | [], [] => true
  | (k, a) :: as, (l, b) :: bs => k == l && same a b && sameMembers as bs
  | _, _ => false
end

instance : BEq Json := ⟨same⟩

/-- The value of an integer: a number where it fits, else its decimal text. -/
def ofInt (i : Int) : Json :=
  match Number.ofInt? i with
  | some n => number n
  | none => string (toString i)

/-- An integer within the range of numbers is kept as a number. -/
theorem ofInt_of_fits {i : Int} (h : FitsWord i) : ofInt i = number (.int i h) := by
  unfold ofInt Number.ofInt?
  rw [dif_pos h]

theorem ofInt_of_not_fits {i : Int} (h : ¬ FitsWord i) : ofInt i = string (toString i) := by
  unfold ofInt Number.ofInt?
  rw [dif_neg h]

/-- A natural number as a value, as for an integer. -/
def ofNat (n : Nat) : Json := ofInt n

/-- A text or null. -/
def ofString? : Option String → Json
  | none => null
  | some s => string s

/-- Whether the value is null. -/
def isNull : Json → Bool
  | null => true
  | _ => false

/-- Whether the value is a text. -/
def isString : Json → Bool
  | string _ => true
  | _ => false

/-- Whether the value is an object. -/
def isObject : Json → Bool
  | object _ => true
  | _ => false

/-- The text that the value is. -/
def asString? : Json → Option String
  | string s => some s
  | _ => none

/-- The member under `name` when the value is an object. -/
def member? (name : String) : Json → Option Json
  | object o => Table.get? name o
  | _ => none

end Json
end EventScript
