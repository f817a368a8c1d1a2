/-
Variables through all writes. A variable is set under its name, or a place is written that a path
leads to; for the second the variables are taken for one value, their root, and what becomes of
the root is taken for the variables again. That step back is only good for an object. Every path
that leads anywhere leads below the root, though, and what is rewritten below an object leaves an
object with the names it had, or with one more; so nothing is ever lost on the way back, in
whatever order the writes come.

A root that could be anything is the second way to tell the same writes: there a name is set only
when the root happens to be an object, and dropped otherwise. From the empty object on, both tell
the same.
-/
import EventScript.Proofs.Json.InPlace

namespace EventScript

-- ============================================================== the root

namespace Json

variable {members : Object} {v : Json} {old : Option Json} {root' : Json}

/-- Another value right below an object leaves an object with the same names. -/
theorem replaceChild_object (segment : String) (v : Json) (h : members.Ascending) :
    ∃ members' : Object, replaceChild (object members) segment v = object members'
      ∧ members'.Ascending := by
  refine ⟨Table.replace segment v members, rfl, ?_⟩
  unfold Table.Ascending
  rw [Table.keys_replace]
  exact h

/-- An assignment below an object leaves an object. -/
theorem assign_object {p : String} (h : members.Ascending)
    (hok : assign (object members) p v = .ok (old, root')) :
    ∃ members' : Object, root' = object members' ∧ members'.Ascending := by
  rcases List.eq_nil_or_concat (Path.ofString p) with hp | ⟨parents, last, hp⟩
  · unfold assign at hok
    rw [hp] at hok
    cases hok
  · rw [List.concat_eq_append] at hp
    rw [assign_eq hp] at hok
    cases parents with
    | nil =>
        cases hok
        exact ⟨Table.insert last v members, rfl, h.insert last v⟩
    | cons parent parents =>
        unfold assignThrough at hok
        cases hchild : (object members).child? parent with
        | none =>
            rw [hchild] at hok
            cases hok
        | some c =>
            rw [hchild] at hok
            dsimp only at hok
            cases hbelow : c.assignThrough p last v parents with
            | error e =>
                rw [hbelow] at hok
                cases hok
            | ok done =>
                rw [hbelow] at hok
                cases hok
                exact replaceChild_object parent done.2 h

/-- A value exchanged below an object leaves an object. -/
theorem overwrite?_object {p : String} (h : members.Ascending)
    (hsome : overwrite? (object members) p v = some root') :
    ∃ members' : Object, root' = object members' ∧ members'.Ascending := by
  unfold overwrite? at hsome
  cases hp : Path.ofString p with
  | nil =>
      rw [hp] at hsome
      cases hsome
  | cons segment rest =>
      rw [hp] at hsome
      obtain ⟨c, -, hrest⟩ := Option.bind_eq_some_iff.mp hsome
      obtain ⟨c', -, rfl⟩ := Option.map_eq_some_iff.mp hrest
      exact replaceChild_object segment c' h

end Json

namespace Globals

variable {g g' : Globals} {name p : String} {v : Json}

-- ============================================================ names alone

/-- A name without a dot is a path of one segment. -/
theorem ofString_name (hne : name ≠ "") (hdot : '.' ∉ name.toList) :
    Path.ofString name = [name] := by
  rw [Path.ofString_of_not_mem hdot]
  simp [hne]

/-- A name without a point is a path of one segment. -/
theorem getPath?_name (hne : name ≠ "") (hdot : '.' ∉ name.toList) :
    g.getPath? name = g.get? name := by
  have hpath := ofString_name hne hdot
  have hroot : g.root.child? name = g.get? name := rfl
  unfold getPath?
  rw [Json.get?_of_ne_nil (by simp [hpath]), hpath]
  simp [Json.descend?, hroot]

/-- Writing at a name without a point sets the variable. -/
theorem setPath_name (hne : name ≠ "") (hdot : '.' ∉ name.toList) (v : Json) :
    g.setPath name v = .ok (g.set name v) := by
  have hpath : Path.ofString name = [] ++ [name] := ofString_name hne hdot
  rw [setPath_eq_ok_iff]
  refine ⟨g.get? name, ?_⟩
  rw [Json.assign_eq hpath]
  rfl

-- ================================================================ writes

/-- A way to write variables. -/
inductive Write where
  | set (name : String) (value : Json)
  | setPath (path : String) (value : Json)
  /-- In place, where there is a value. -/
  | overwrite (path : String) (value : Json)
  | clear

namespace Write

/-- The variables after a write. One that leads nowhere leaves them as they are. -/
def apply (g : Globals) : Write → Globals
  | set name value => g.set name value
  | setPath path value => match g.setPath path value with
    | .ok g' => g'
    | .error _ => g
  | overwrite path value => g.overwrite path value
  | clear => .empty

/-- What the same write makes of a root of any kind, where a name is of use in an object only. -/
def onRoot (root : Json) : Write → Json
  | set name value => match root with
    | .object members => .object (Table.insert name value members)
    | other => other
  | setPath path value => match root.assign path value with
    | .ok (_, root') => root'
    | .error _ => root
  | overwrite path value => (root.overwrite? path value).getD root
  | clear => .object []

/-- A write makes of the root what it makes of the variables, whose names stay in order. -/
theorem onRoot_root (h : g.members.Ascending) (w : Write) :
    w.onRoot g.root = (w.apply g).root ∧ (w.apply g).members.Ascending := by
  cases w with
  | set name value => exact ⟨rfl, h.insert name value⟩
  | clear => exact ⟨rfl, Table.ascending_nil⟩
  | setPath path value =>
      simp only [onRoot, apply, Globals.setPath]
      cases hassign : g.root.assign path value with
      | error e => exact ⟨rfl, h⟩
      | ok done =>
          obtain ⟨old, root'⟩ := done
          obtain ⟨members', rfl, hascending⟩ := Json.assign_object h hassign
          exact ⟨rfl, hascending⟩
  | overwrite path value =>
      simp only [onRoot, apply, Globals.overwrite]
      cases hoverwrite : g.root.overwrite? path value with
      | none => exact ⟨rfl, h⟩
      | some root' =>
          obtain ⟨members', rfl, hascending⟩ := Json.overwrite?_object h hoverwrite
          exact ⟨rfl, hascending⟩

/-- However often the variables are written, their root is the root that was written as often. -/
theorem foldl_onRoot_root (h : g.members.Ascending) (writes : List Write) :
    writes.foldl onRoot g.root = (writes.foldl apply g).root
      ∧ (writes.foldl apply g).members.Ascending := by
  induction writes generalizing g with
  | nil => exact ⟨rfl, h⟩
  | cons w writes ih =>
      obtain ⟨hroot, hascending⟩ := onRoot_root h w
      rw [List.foldl_cons, List.foldl_cons, hroot]
      exact ih hascending

end Write

/-- Setting a variable changes that one, and makes one more of them when there was none. -/
structure SetsOne (g : Globals) (name : String) (v : Json) : Prop where
  get? : (g.set name v).get? name = some v
  others : ∀ other, other ≠ name → (g.set name v).get? other = g.get? other
  size : (g.set name v).size = if (g.get? name).isSome then g.size else g.size + 1

theorem setsOne (g : Globals) (name : String) (v : Json) : g.SetsOne name v where
  get? := by simp [set, Globals.get?, Table.get?_insert]
  others other hne := by simp [set, Globals.get?, Table.get?_insert, hne]
  size := Table.length_insert name v g.members

/-- The variables are always the members of an object. Whatever is set under names, written at
paths, exchanged in place or cleared, a root that might have become anything is an object still,
of these members, each name once and in order; so a variable that is set is there, beside the
others as they were, and there is one more exactly when the name is new. A name that is not empty
and has no dot in it is a path as well, for reading and for writing. -/
theorem root_stays_object (writes : List Write) :
    let g := writes.foldl Write.apply .empty
    writes.foldl Write.onRoot (.object []) = .object g.members ∧ g.members.Ascending
      ∧ (∀ name v, g.SetsOne name v
        ∧ Write.onRoot (.object g.members) (.set name v) = .object (g.set name v).members)
      ∧ ∀ name, name ≠ "" → '.' ∉ name.toList →
        g.getPath? name = g.get? name ∧ ∀ v, g.setPath name v = .ok (g.set name v) := by
  intro g
  obtain ⟨hroot, hascending⟩ := Write.foldl_onRoot_root (g := .empty) Table.ascending_nil writes
  refine ⟨hroot, hascending, fun name v => ⟨g.setsOne name v, rfl⟩, ?_⟩
  intro name hne hdot
  exact ⟨getPath?_name hne hdot, setPath_name hne hdot⟩

/-- Paths of dots alone lead nowhere, a variable is exchanged in place for one of another kind, and
what is to stand below it then is refused. -/
theorem root_stays_object_between_dots :
    let writes : List Write := [.overwrite ".." .null, .setPath "..." (.bool true),
      .set "a" (.object []), .setPath "a.b" .null, .overwrite ".a." (.bool true),
      .setPath "a.b" .null]
    let g := writes.foldl Write.apply .empty
    g = ⟨[("a", .bool true)]⟩
      ∧ writes.foldl Write.onRoot (.object []) = .object [("a", .bool true)]
      ∧ "b" ≠ "" ∧ '.' ∉ "b".toList ∧ g.setPath "b" .null = .ok (g.set "b" .null)
      ∧ (g.set "b" .null).size = 2 := by
  intro writes g
  have hg : g = ⟨[("a", .bool true)]⟩ := rfl
  obtain ⟨hroot, -, hset, hname⟩ := root_stays_object writes
  have hne : "b" ≠ "" := by decide
  have hdot : '.' ∉ "b".toList := by decide
  exact ⟨hg, hroot, hne, hdot, (hname "b" hne hdot).2 .null, (hset "b" .null).1.size⟩

end Globals
end EventScript
