/-
Dot paths into a value. A path names the place of a value by its segments, the non-empty
texts between dots: a member name in an object, a position in an array. Reading
(`get?`), overwriting a place that exists (`overwrite?`) and assigning (`assign`, which
may also create the last segment) resolve a segment by the one function `child?`.
-/
import EventScript.Json.Basic
import EventScript.Text.Split
import EventScript.Text.Numeral

namespace EventScript

/-- The segments of a path, outermost first. -/
abbrev Path := List String

namespace Path

/-- The segments of a written path; empty ones do not count. -/
def ofString (s : String) : Path :=
  ((Text.piecesAt (· == '.') s.toList).filter fun piece => !piece.isEmpty).map String.ofList

/-- The array position a segment denotes. -/
def position? (segment : String) : Option Nat :=
  Text.unsignedBelow? 0x10000000000000000 segment.toList

/-- Why an assignment was refused. Each carries the path as it was written. -/
inductive Error where
  /-- The path has no segment. -/
  | empty
  /-- A segment before the last resolves to nothing. -/
  | missingParent (path : String)
  /-- The last segment can be neither a member nor a position of its parent. -/
  | notAContainer (path segment : String)
deriving DecidableEq, Repr

/-- The error in words. -/
def Error.message : Error → String
  | empty => "Empty path"
  | missingParent path => "Parent of '" ++ path ++ "' does not exist"
  | notAContainer path segment =>
    "Cannot write '" ++ segment ++ "' into a non-container value in '" ++ path ++ "'"

end Path

namespace Json

/-- The value one segment below `v`. -/
def child? (v : Json) (segment : String) : Option Json :=
  match v with
  | object members => Table.get? segment members
  | array items => (Path.position? segment).bind fun i => items[i]?
  | _ => none

/-- `v` with the value one segment below it exchanged; unchanged without such a value. -/
def replaceChild (v : Json) (segment : String) (new : Json) : Json :=
  match v with
  | object members => object (Table.replace segment new members)
  | array items => match Path.position? segment with
    | some i => array (items.set i new)
    | none => array items
  | v => v

/-- The value at the end of a path. -/
def descend? (v : Json) : Path → Option Json
  | [] => some v
  | segment :: rest => (v.child? segment).bind fun c => c.descend? rest

/-- The root with the value at the end of a path exchanged; `none` when nothing is there. -/
def exchange? (v : Json) (new : Json) : Path → Option Json
  | [] => some new
  | segment :: rest =>
    (v.child? segment).bind fun c =>
      (c.exchange? new rest).map fun c' => v.replaceChild segment c'

/-- Assignment right below `v`: what was there, and `v` afterwards. A member may be new,
and a position may be the one past the end. -/
def assignChild? (v : Json) (segment : String) (new : Json) : Option (Option Json × Json) :=
  match v with
  | object members =>
    some (Table.get? segment members, object (Table.insert segment new members))
  | array items => (Path.position? segment).bind fun i =>
    if i < items.length then some (items[i]?, array (items.set i new))
    else if i = items.length then some (none, array (items ++ [new]))
    else none
  | _ => none

/-- Assignment of `new` below the value `v` at `segment`, reached through `parents`. -/
def assignThrough (v : Json) (path segment : String) (new : Json) :
    (parents : List String) → Except Path.Error (Option Json × Json)
  | [] => match v.assignChild? segment new with
    | some done => .ok done
    | none => .error (.notAContainer path segment)
  | parent :: rest => match v.child? parent with
    | none => .error (.missingParent path)
    | some c => match c.assignThrough path segment new rest with
      | .ok (old, c') => .ok (old, v.replaceChild parent c')
      | .error e => .error e

-- ========================================================= written paths

/-- The value at a written path; a path without segments leads nowhere. -/
def get? (root : Json) (path : String) : Option Json :=
  match Path.ofString path with
  | [] => none
  | segments => root.descend? segments

/-- The root with the value at a written path exchanged, when there is one. -/
def overwrite? (root : Json) (path : String) (new : Json) : Option Json :=
  match Path.ofString path with
  | [] => none
  | segments => root.exchange? new segments

/-- Assignment at a written path: the value replaced, if any, and the new root. Parents
have to exist. -/
def assign (root : Json) (path : String) (new : Json) :
    Except Path.Error (Option Json × Json) :=
  match (Path.ofString path).reverse with
  | [] => .error .empty
  | last :: parents => root.assignThrough path last new parents.reverse

end Json
end EventScript
