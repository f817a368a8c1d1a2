/-
Changing one place of a value. A segment names a way down from a value, a member of an
object or a position of an array. Several texts can name one position, so places are told
apart by the ways and not by the texts.

An update of a value changes what is at the end of one way and nothing beside it. A value is
rewritten at a path when each value along the path is updated with the one below it.
Whatever changes a value through a path rewrites it, so what can be read afterwards is said
of rewritings, by induction on the path.
-/
import EventScript.Json.Path

namespace EventScript.Json

-- ================================================================== ways

/-- A way down from a value. -/
inductive Edge where
  | member (name : String)
  | position (index : Nat)
deriving DecidableEq

/-- The way down that a segment names in a value. -/
def edge? : Json → String → Option Edge
  | object _, segment => some (.member segment)
  | array _, segment => (Path.position? segment).map .position
  | _, _ => none

variable {v v' c c' new : Json} {s t : String} {p q : Path}

/-- Segments that name the same way lead to the same value. -/
theorem child?_congr (h : v.edge? s = v.edge? t) : v.child? s = v.child? t := by
  cases v with
  | object members =>
      simp only [edge?, Option.some.injEq, Edge.member.injEq] at h
      rw [h]
  | array items =>
      have hsame : Path.position? s = Path.position? t :=
        Option.map_injective (fun _ _ => Edge.position.inj) h
      simp only [child?, hsame]
  | _ => rfl

/-- From where both paths reach it, the second leaves the way of the first: the next
segments name different ways. -/
inductive Departs : Json → Path → Path → Prop
  | here {v : Json} {s t : String} {p q : Path} : v.edge? s ≠ v.edge? t →
      Departs v (s :: p) (t :: q)
  | further {v c : Json} {s t : String} {p q : Path} : v.edge? s = v.edge? t →
      v.child? s = some c → Departs c p q → Departs v (s :: p) (t :: q)

/-- The second path goes along the first to its end, and perhaps further. -/
inductive Leads : Json → Path → Path → Prop
  | here {v : Json} {q : Path} : Leads v [] q
  | further {v c : Json} {s t : String} {p q : Path} : v.edge? s = v.edge? t →
      v.child? s = some c → Leads c p q → Leads v (s :: p) (t :: q)

/-- A path is followed in two stretches. -/
theorem descend?_append (v : Json) (p q : Path) :
    v.descend? (p ++ q) = (v.descend? p).bind fun c => c.descend? q := by
  induction p generalizing v with
  | nil => rfl
  | cons s p ih =>
      simp only [List.cons_append, descend?, Option.bind_assoc]
      exact Option.bind_congr fun c _ => ih c

/-- A path that leads nowhere stops at the first segment that has no value. -/
theorem descend?_eq_none_iff :
    v.descend? p = none ↔ ∃ before s after c, p = before ++ s :: after
      ∧ v.descend? before = some c ∧ c.child? s = none := by
  constructor
  · intro h
    induction p generalizing v with
    | nil => cases h
    | cons s p ih =>
        cases hs : v.child? s with
        | none => exact ⟨[], s, p, v, rfl, rfl, hs⟩
        | some c =>
            simp only [descend?, hs, Option.bind_some] at h
            obtain ⟨before, t, after, d, rfl, hd, ht⟩ := ih h
            refine ⟨s :: before, t, after, d, rfl, ?_, ht⟩
            simp only [descend?, hs, Option.bind_some, hd]
  · intro h
    obtain ⟨before, s, after, c, rfl, hc, hs⟩ := h
    rw [descend?_append, hc, Option.bind_some]
    simp only [descend?, hs, Option.bind_none]

-- =============================================================== updates

/-- The second value is the first with another one at the end of a way, and all else as it
was. -/
structure Updated (v : Json) (segment : String) (new v' : Json) : Prop where
  edge? : ∀ t, v'.edge? t = v.edge? t
  child? : ∀ t, v'.child? t = if v.edge? t = v.edge? segment then some new else v.child? t

/-- After an update the new value is there. -/
theorem Updated.child?_self (h : Updated v s new v') : v'.child? s = some new := by
  rw [h.child?, if_pos rfl]

theorem Updated.child?_of_ne (h : Updated v s new v') (hne : v.edge? s ≠ v.edge? t) :
    v'.child? t = v.child? t := by
  rw [h.child?, if_neg (Ne.symm hne)]

/-- The update of an array at a position, by a list that has the new item there and
otherwise the old ones. -/
theorem updated_array {items items' : List Json} {i : Nat} (hi : Path.position? s = some i)
    (h : ∀ j, items'[j]? = if j = i then some new else items[j]?) :
    Updated (array items) s new (array items') where
  edge? _ := rfl
  child? t := by
    simp only [Json.child?, Json.edge?, hi, Option.map_some]
    cases Path.position? t with
    | none => simp
    | some j => simp [h]

theorem updated_insert (members : Object) :
    Updated (object members) s new (object (Table.insert s new members)) where
  edge? _ := rfl
  child? t := by simp [Json.child?, Json.edge?, Table.get?_insert]

/-- Exchanging a value that is there is an update. -/
theorem updated_replaceChild (h : v.child? s = some c) (new : Json) :
    Updated v s new (v.replaceChild s new) := by
  cases v with
  | object members =>
      have hhas : Table.has s members = true := by
        unfold Table.has
        rw [show Table.get? s members = some c from h]
        rfl
      have heq : Table.replace s new members = Table.insert s new members :=
        (if_pos hhas).symm
      simp only [replaceChild, heq]
      exact updated_insert members
  | array items =>
      obtain ⟨i, hi, hitem⟩ := Option.bind_eq_some_iff.mp h
      have hlt : i < items.length := (List.getElem?_eq_some_iff.mp hitem).1
      simp only [replaceChild, hi]
      refine updated_array hi fun j => ?_
      rw [List.getElem?_set]
      by_cases hj : j = i
      · simp [hj, hlt]
      · rw [if_neg hj, if_neg (Ne.symm hj)]
  | _ => cases h

/-- Assigning right below a value is an update, and answers with what was there. An array
takes a new item right behind its last one and nowhere else. -/
theorem updated_assignChild? {old : Option Json} (h : v.assignChild? s new = some (old, v')) :
    Updated v s new v' ∧ old = v.child? s
      ∧ ∀ items, v = array items → old = none → Path.position? s = some items.length := by
  cases v with
  | object members =>
      simp only [assignChild?, Option.some.injEq, Prod.mk.injEq] at h
      obtain ⟨rfl, rfl⟩ := h
      refine ⟨updated_insert members, rfl, ?_⟩
      intro items hv
      cases hv
  | array items =>
      obtain ⟨i, hi, hassign⟩ := Option.bind_eq_some_iff.mp h
      have hchild : (array items).child? s = items[i]? := by simp [child?, hi]
      rw [hchild]
      by_cases hlt : i < items.length
      · rw [if_pos hlt] at hassign
        obtain ⟨rfl, rfl⟩ := Prod.mk.inj (Option.some.inj hassign)
        refine ⟨?_, rfl, ?_⟩
        · have hset := updated_replaceChild (v := array items) (s := s) (c := items[i])
            (by rw [hchild]; exact List.getElem?_eq_getElem hlt) new
          simp only [replaceChild, hi] at hset
          exact hset
        · intro _ _ hnone
          rw [List.getElem?_eq_getElem hlt] at hnone
          cases hnone
      -- past the last item only the very next position can be assigned
      · rw [if_neg hlt] at hassign
        by_cases hend : i = items.length
        · rw [if_pos hend] at hassign
          obtain ⟨rfl, rfl⟩ := Prod.mk.inj (Option.some.inj hassign)
          refine ⟨updated_array hi fun j => ?_, ?_, ?_⟩
          · rw [hend, List.getElem?_append]
            by_cases hj : j < items.length
            · rw [if_pos hj, if_neg (Nat.ne_of_lt hj)]
            · by_cases hj' : j = items.length
              · simp [hj']
              · have hpast : items.length + 1 ≤ j := by omega
                rw [if_neg hj, if_neg hj', List.getElem?_eq_none (Nat.le_of_lt hpast)]
                exact List.getElem?_eq_none (Nat.le_sub_of_add_le' hpast)
          · rw [List.getElem?_eq_none (by omega)]
          · intro items' hv _
            cases hv
            rw [hi, hend]
        · rw [if_neg hend] at hassign
          cases hassign
  | _ => cases h

-- ============================================================= rewriting

/-- The second value is the first rewritten at a path, which leads to the new value then. The
last segment may be new; those before it lead through values that are there. -/
inductive Rewritten (new : Json) : Json → Path → Json → Prop
  | leaf {v v' : Json} {s : String} : Updated v s new v' → Rewritten new v [s] v'
  | further {v v' c c' : Json} {s : String} {p : Path} : v.child? s = some c →
      Rewritten new c p c' → Updated v s c' v' → Rewritten new v (s :: p) v'

/-- Behind the path stands the new value, and what is below that. -/
theorem Rewritten.descend?_append (h : Rewritten new v p v') (q : Path) :
    v'.descend? (p ++ q) = new.descend? q := by
  induction h with
  | leaf hu => simp only [List.cons_append, List.nil_append, descend?, hu.child?_self,
      Option.bind_some]
  | further _ _ hu ih =>
      simp only [List.cons_append, descend?, hu.child?_self, Option.bind_some, ih]

/-- Where a value was written it is found. -/
theorem Rewritten.descend? (h : Rewritten new v p v') : v'.descend? p = some new := by
  have hself := h.descend?_append []
  rwa [List.append_nil] at hself

/-- A path that leaves the way of the rewriting leads where it led. -/
theorem Rewritten.descend?_of_departs (h : Rewritten new v p v') (hq : v'.Departs p q) :
    v'.descend? q = v.descend? q := by
  induction h generalizing q with
  | leaf hu =>
      cases hq with
      | here hne =>
          rw [hu.edge?, hu.edge?] at hne
          simp only [Json.descend?, hu.child?_of_ne hne]
      | further _ _ hrest => cases hrest
  | further hc _ hu ih =>
      cases hq with
      | here hne =>
          rw [hu.edge?, hu.edge?] at hne
          simp only [Json.descend?, hu.child?_of_ne hne]
      | further heq hchild hrest =>
          have hnew := hu.child?_self
          rw [hchild] at hnew
          cases hnew
          have hold := heq
          rw [hu.edge?, hu.edge?] at hold
          rw [child?_congr hold] at hc
          rw [child?_congr heq] at hchild
          simp only [Json.descend?, hc, hchild, Option.bind_some]
          exact ih hrest

/-- What leads somewhere only after the rewriting goes along its path. -/
theorem Rewritten.leads_of_fresh (h : Rewritten new v p v') (hbefore : v.descend? q = none)
    (hafter : v'.descend? q ≠ none) : v'.Leads p q := by
  induction h generalizing q with
  | @leaf v v' s hu =>
      cases q with
      | nil => cases hbefore
      | cons t q =>
          by_cases heq : v.edge? s = v.edge? t
          · refine .further ?_ hu.child?_self .here
            rw [hu.edge?, hu.edge?, heq]
          · simp only [Json.descend?, hu.child?_of_ne heq] at hafter
            exact absurd hbefore hafter
  | @further v v' c c' s p hc _ hu ih =>
      cases q with
      | nil => cases hbefore
      | cons t q =>
          by_cases heq : v.edge? s = v.edge? t
          · have heq' : v'.edge? s = v'.edge? t := by rw [hu.edge?, hu.edge?, heq]
            have hnew := hu.child?_self
            refine .further heq' hnew (ih ?_ ?_)
            · rw [child?_congr heq] at hc
              simpa only [Json.descend?, hc, Option.bind_some] using hbefore
            · rw [child?_congr heq'] at hnew
              simpa only [Json.descend?, hnew, Option.bind_some] using hafter
          · simp only [Json.descend?, hu.child?_of_ne heq] at hafter
            exact absurd hbefore hafter

end EventScript.Json
