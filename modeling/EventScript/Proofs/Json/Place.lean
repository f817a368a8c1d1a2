/-
Two paths to one place. A position of an array has more than one spelling, so one place may
be read through one path and written through another; what the paths share are the ways they
go. Rewriting does not move ways, so paths that led to one place before lead to one place
afterwards, and rewriting a place twice, through whichever paths, is rewriting it once with
the second value.

Of two paths to values that have nothing below them, either both lead to one place or the
second leaves the way of the first. That settles what becomes of any of the variables when
one of them is written over and over.
-/
import EventScript.Proofs.Globals

namespace EventScript

namespace Json

/-- From the value on, the two paths go the same ways and end together. -/
inductive SamePlace : Json → Path → Path → Prop
  | here {v : Json} : SamePlace v [] []
  | further {v c : Json} {s t : String} {p q : Path} : v.edge? s = v.edge? t →
      v.child? s = some c → SamePlace c p q → SamePlace v (s :: p) (t :: q)

/-- Nothing is below the value. -/
def Childless (v : Json) : Prop := ∀ segment, v.child? segment = none

variable {v v' v'' c c' d new new' : Json} {s t : String} {p q : Path}

/-- A path that leads somewhere meets itself there. -/
theorem SamePlace.of_descend? (h : v.descend? p = some c) : SamePlace v p p := by
  induction p generalizing v with
  | nil => exact .here
  | cons s p ih =>
      obtain ⟨d, hd, hrest⟩ := Option.bind_eq_some_iff.mp h
      exact .further rfl hd (ih hrest)

/-- Paths to values with nothing below them end in one place, or the one leaves the way of
the other. -/
theorem departs_of_childless (hp : v.descend? p = some c) (hc : c.Childless)
    (hq : v.descend? q = some d) (hd : d.Childless) (hne : ¬ v.SamePlace p q) :
    v.Departs p q := by
  induction p generalizing v q with
  | nil =>
      cases hp
      cases q with
      | nil => exact absurd .here hne
      | cons t q =>
          obtain ⟨e, he, -⟩ := Option.bind_eq_some_iff.mp hq
          rw [hc t] at he
          cases he
  | cons s p ih =>
      obtain ⟨e, he, hrest⟩ := Option.bind_eq_some_iff.mp hp
      cases q with
      | nil =>
          cases hq
          rw [hd s] at he
          cases he
      | cons t q =>
          by_cases heq : v.edge? s = v.edge? t
          · rw [descend?, ← child?_congr heq, he, Option.bind_some] at hq
            exact .further heq he (ih hrest hq fun hsame => hne (.further heq he hsame))
          · exact .here heq

-- ========================================================= rewriting twice

/-- A value is the update of itself at what is there. -/
theorem updated_self (h : v.child? s = some c) : Updated v s c v where
  edge? _ := rfl
  child? t := by
    split
    case isTrue heq => rw [child?_congr heq, h]
    case isFalse => rfl

/-- An update after another one at the same segment is one update. -/
theorem Updated.trans (h : Updated v s new v') (heq : v.edge? s = v.edge? t)
    (h' : Updated v' t new' v'') : Updated v s new' v'' where
  edge? u := by rw [h'.edge?, h.edge?]
  child? u := by
    rw [h'.child?, h.edge?, h.edge?, ← heq, h.child?]
    split <;> rfl

/-- A value is itself rewritten at what is there. -/
theorem Rewritten.of_descend? (hpath : p ≠ []) (h : v.descend? p = some c) :
    Rewritten c v p v := by
  induction p generalizing v with
  | nil => contradiction
  | cons s p ih =>
      obtain ⟨d, hd, hrest⟩ := Option.bind_eq_some_iff.mp h
      cases p with
      | nil =>
          cases hrest
          exact .leaf (updated_self hd)
      | cons t p => exact .further hd (ih (List.cons_ne_nil t p) hrest) (updated_self hd)

/-- Both paths to a place read what has been written there. -/
theorem Rewritten.descend?_of_samePlace (h : Rewritten new v p v') (hs : v.SamePlace p q) :
    v'.descend? q = some new := by
  induction h generalizing q with
  | @leaf v v' s hu =>
      cases hs with
      | @further _ _ _ t _ _ heq _ hrest =>
          cases hrest
          have heq' : v'.edge? s = v'.edge? t := by rw [hu.edge?, hu.edge?, heq]
          rw [Json.descend?, ← child?_congr heq', hu.child?_self]
          rfl
  | @further v v' c c' s p hc _ hu ih =>
      cases hs with
      | @further _ _ _ t _ _ heq hchild hrest =>
          cases hc.symm.trans hchild
          have heq' : v'.edge? s = v'.edge? t := by rw [hu.edge?, hu.edge?, heq]
          rw [Json.descend?, ← child?_congr heq', hu.child?_self]
          exact ih hrest

/-- The second of two rewritings of one place is the one that stays. -/
theorem Rewritten.trans (h : Rewritten new v p v') (hs : v.SamePlace p q)
    (h' : Rewritten new' v' q v'') : Rewritten new' v p v'' := by
  induction h generalizing q v'' with
  | @leaf v v' s hu =>
      cases hs with
      | further heq _ hrest =>
          cases hrest
          cases h' with
          | leaf hu' => exact .leaf (hu.trans heq hu')
          | further _ hbelow _ => cases hbelow
  | @further v v' c c' s p hc hbelow hu ih =>
      cases hs with
      | @further _ _ _ t _ _ heq hchild hrest =>
          cases hc.symm.trans hchild
          have heq' : v'.edge? s = v'.edge? t := by rw [hu.edge?, hu.edge?, heq]
          have hthere : v'.child? t = some c' := (child?_congr heq').symm.trans hu.child?_self
          cases h' with
          | leaf hu' =>
              cases hrest
              cases hbelow
          | further hc' hbelow' hu' =>
              cases hthere.symm.trans hc'
              exact .further hc (ih hrest hbelow') (hu.trans heq hu')

/-- A path that leaves the way of another one still does when that one is rewritten. -/
theorem Rewritten.departs (h : Rewritten new v p v') (hq : v.Departs p q) : v'.Departs p q := by
  induction h generalizing q with
  | leaf hu =>
      cases hq with
      | here hne => exact .here (by rw [hu.edge?, hu.edge?]; exact hne)
      | further _ _ hrest => cases hrest
  | further hc _ hu ih =>
      cases hq with
      | here hne => exact .here (by rw [hu.edge?, hu.edge?]; exact hne)
      | further heq hchild hrest =>
          cases hc.symm.trans hchild
          exact .further (by rw [hu.edge?, hu.edge?]; exact heq) hu.child?_self (ih hrest)

-- =========================================================== writing over

/-- Nothing is below a segment that a value does not take. -/
theorem child?_eq_none_of_not_takes (h : ¬ v.Takes s) : v.child? s = none := by
  cases v with
  | object members => exact absurd trivial h
  | array items =>
      cases hi : Path.position? s with
      | none => simp [child?, hi]
      | some i =>
          have hpast : items.length ≤ i :=
            Nat.not_lt.mp fun hlt => h ⟨i, hi, Nat.le_of_lt hlt⟩
          simp [child?, hi, hpast]
  | _ => rfl

/-- An assignment is only refused where nothing is. -/
theorem Refuses.get?_eq_none {root : Json} {path : String} {e : Path.Error}
    (h : root.Refuses path e) : root.get? path = none := by
  cases h with
  | empty hpath => exact get?_of_eq_nil hpath
  | missingParent hpath hbefore hnone =>
      rw [get?_of_ne_nil (by simp [hpath]), hpath]
      exact descend?_eq_none_iff.mpr ⟨_, _, _, _, rfl, hbefore, hnone⟩
  | notAContainer hpath hparent htakes =>
      rw [get?_of_ne_nil (by simp [hpath]), hpath]
      exact descend?_eq_none_iff.mpr
        ⟨_, _, [], _, rfl, hparent, child?_eq_none_of_not_takes htakes⟩

end Json

-- ================================================================ variables

namespace Globals

variable {g g' : Globals} {p q : String} {v w c : Json}

/-- The two written paths name one place of the variables. -/
def SamePlace (g : Globals) (p q : String) : Prop :=
  g.root.SamePlace (Path.ofString p) (Path.ofString q)

/-- A variable's path leads where its segments lead from the root. -/
theorem getPath?_eq_some_iff :
    g.getPath? p = some v ↔ Path.ofString p ≠ [] ∧ g.root.descend? (Path.ofString p) = some v := by
  unfold getPath?
  by_cases hp : Path.ofString p = []
  · simp [Json.get?_of_eq_nil hp, hp]
  · simp [Json.get?_of_ne_nil hp, hp]

/-- The second variables are the first with the value at the path. -/
def RewrittenAt (g : Globals) (p : String) (v : Json) (g' : Globals) : Prop :=
  Json.Rewritten v g.root (Path.ofString p) g'.root

theorem SamePlace.of_getPath? (h : g.getPath? p = some v) : g.SamePlace p p :=
  .of_descend? (getPath?_eq_some_iff.mp h).2

theorem RewrittenAt.of_getPath? (h : g.getPath? p = some v) : g.RewrittenAt p v g := by
  obtain ⟨hp, hv⟩ := getPath?_eq_some_iff.mp h
  exact .of_descend? hp hv

/-- What is written at a path is read through every path to the place. -/
theorem RewrittenAt.getPath? (h : g.RewrittenAt p v g') (hs : g.SamePlace p q) :
    g'.getPath? q = some v := by
  refine getPath?_eq_some_iff.mpr ⟨?_, Json.Rewritten.descend?_of_samePlace h hs⟩
  intro hq
  have hp := Json.Rewritten.ofString_ne_nil h
  unfold SamePlace at hs
  rw [hq] at hs
  generalize Path.ofString p = path at hp hs
  cases hs
  exact hp rfl

/-- A variable in another place stays what it was, if nothing is below either of them. -/
theorem RewrittenAt.getPath?_of_other (h : g.RewrittenAt p v g') (hp : g.getPath? p = some c)
    (hc : c.Childless) (hq : g.getPath? q = some w) (hw : w.Childless)
    (hne : ¬ g.SamePlace p q) : g'.getPath? q = some w := by
  obtain ⟨-, hp⟩ := getPath?_eq_some_iff.mp hp
  obtain ⟨hnil, hq⟩ := getPath?_eq_some_iff.mp hq
  have hdeparts := Json.Rewritten.departs h (Json.departs_of_childless hp hc hq hw hne)
  exact getPath?_eq_some_iff.mpr ⟨hnil, (Json.Rewritten.descend?_of_departs h hdeparts).trans hq⟩

/-- A value that is there can be written over. -/
theorem exists_setPath (h : g.getPath? p = some c) (v : Json) :
    ∃ g', g.setPath p v = .ok g' := by
  cases hset : g.setPath p v with
  | ok g' => exact ⟨g', rfl⟩
  | error e =>
      have hnone := (setPath_eq_error_iff.mp hset).get?_eq_none
      cases hnone.symm.trans h

/-- The place is written again through any path to it. -/
theorem RewrittenAt.setPath (h : g.RewrittenAt p v g') (hs : g.SamePlace p q) (w : Json) :
    ∃ g'', g'.setPath q w = .ok g'' ∧ g.RewrittenAt p w g'' := by
  obtain ⟨g'', hset⟩ := exists_setPath (h.getPath? hs) w
  obtain ⟨old, hassign⟩ := setPath_eq_ok_iff.mp hset
  exact ⟨g'', hset, Json.Rewritten.trans h hs (Json.assign_eq_ok hassign).1⟩

end Globals
end EventScript
