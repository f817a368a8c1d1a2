/-
What a store remembers. What is asked of a store is told as data, so that its past is a list,
and what is in the store is read off the past: under an id there is the record that was put
there last, unless the id has been deleted since. No other operation matters, and none on
another id does.

This holds of every kind of store that keeps the laws of a map. A kind of store may refuse
an id or have nothing under it; which error it gives is a matter of the kind, and `Refusals`
says only as much about it as all kinds have in common.
-/
import EventScript.Proofs.Store.Laws

namespace EventScript.Store

-- ============================================================== operations

/-- What may be asked of a store. -/
inductive Operation where
  | put (r : Record)
  | get (id : String)
  | delete (id : String)
  | list
  | contains (id : String)

/-- What a store answers when nothing is wrong. -/
inductive Answer where
  | done
  | record (r : Record)
  | ids (ids : List String)
  | found (b : Bool)
deriving DecidableEq

/-- Whether the operation puts a record under the id or deletes what is there. -/
def Operation.writes (id : String) : Operation → Bool
  | put r => r.id == id
  | delete other => other == id
  | _ => false

section

variable {σ : Type} [Store σ]

/-- The answer to an operation, and the store after it. -/
def serve (s : σ) : Operation → Except StoreError Answer × σ
  | .put r => match put s r with
    | .ok s' => (.ok .done, s')
    | .error e => (.error e, s)
  | .get id => ((get s id).map .record, s)
  | .delete id => match delete s id with
    | .ok (r, s') => (.ok (.record r), s')
    | .error e => (.error e, s)
  | .list => ((list s).map .ids, s)
  | .contains id => ((contains s id).map .found, s)

/-- The store after operations, one after another. -/
def afterAll (s : σ) (ops : List Operation) : σ := ops.foldl (fun s op => (serve s op).2) s

/-- The answers to operations, one after another. -/
def answers (s : σ) : List Operation → List (Except StoreError Answer)
  | [] => []
  | op :: ops => (serve s op).1 :: answers (serve s op).2 ops

end

-- ================================================================ the past

/-- The record is the last one put under its id, which has not been deleted since. -/
def LastPut (past : List Operation) (r : Record) : Prop :=
  ∃ before after, past = before ++ .put r :: after ∧ ∀ op ∈ after, op.writes r.id = false

/-- Whether all the records to be put are of a kind. -/
def Puts (Holds : Record → Prop) (ops : List Operation) : Prop := ∀ r, .put r ∈ ops → Holds r

section

variable {past : List Operation} {op : Operation} {r : Record}

theorem not_lastPut_nil : ¬ LastPut [] r := by
  rintro ⟨before, after, hpast, -⟩
  exact List.append_ne_nil_of_right_ne_nil before (List.cons_ne_nil _ after) hpast.symm

/-- A record is the last one after one operation more if this put it, or left it alone. -/
theorem lastPut_append_singleton :
    LastPut (past ++ [op]) r ↔ op = .put r ∨ LastPut past r ∧ op.writes r.id = false := by
  constructor
  · rintro ⟨before, after, hpast, hafter⟩
    rcases List.eq_nil_or_concat after with rfl | ⟨after, last, rfl⟩
    · exact Or.inl (List.append_inj_right' hpast rfl |> List.singleton_inj.mp)
    · rw [List.concat_eq_append] at hpast hafter
      rw [← List.cons_append, ← List.append_assoc] at hpast
      obtain ⟨rfl, hlast⟩ := List.append_inj' hpast rfl
      cases hlast
      exact Or.inr ⟨⟨before, after, rfl, fun op hop => hafter op (List.mem_append_left _ hop)⟩,
        hafter op (List.mem_append_right _ (List.mem_singleton_self op))⟩
  · rintro (rfl | ⟨⟨before, after, rfl, hafter⟩, hop⟩)
    · exact ⟨past, [], rfl, fun op hop => absurd hop List.not_mem_nil⟩
    · refine ⟨before, after ++ [op], by simp, ?_⟩
      intro later hlater
      rcases List.mem_append.mp hlater with hlater | hlater
      · exact hafter later hlater
      · rw [List.mem_singleton.mp hlater]
        exact hop

end

-- ================================================================ the laws

variable {σ : Type} [Store σ]

/-- What the kinds of store have in common where they refuse. -/
structure Refusals (σ : Type) [Store σ] : Prop where
  /-- A record is not put under an id that cannot be used. -/
  put : ∀ {s : σ} {r : Record}, isValidId r.id = false → Store.put s r = .error (.invalidId r.id)
  /-- What cannot be got cannot be deleted, for the same reason. -/
  delete : ∀ {s : σ} {id : String} {e : StoreError}, Store.get s id = .error e →
    Store.delete s id = .error e

variable {Sound : σ → Prop} {Holds : Record → Prop} {s : σ} {past : List Operation}

/-- What is got under a usable id is the record that can be read there. -/
theorem Laws.get_eq (laws : Laws σ Sound Holds) (hs : Sound s) {id : String}
    (hid : isValidId id = true) :
    get s id = match record? s id with
      | some r => .ok r
      | none => .error (.notFound id) := by
  cases hr : record? s id with
  | none => exact laws.get_absent hs hid hr
  | some r => exact get_eq_ok_iff.mpr hr

/-- The store is sound, and the records in it are those last put under usable ids. -/
structure Remembers (Sound : σ → Prop) (s : σ) (past : List Operation) : Prop where
  sound : Sound s
  record?_iff : ∀ {id : String} {r : Record},
    record? s id = some r ↔ isValidId id = true ∧ r.id = id ∧ LastPut past r

/-- A store without records remembers an empty past. -/
theorem Remembers.of_empty (hs : Sound s) (hnone : ∀ id, record? s id = none) :
    Remembers Sound s [] := by
  refine ⟨hs, ?_⟩
  intro id r
  rw [hnone id]
  constructor
  · intro h
    cases h
  · rintro ⟨-, -, h⟩
    exact absurd h not_lastPut_nil

namespace Remembers

/-- An operation that writes under no usable id leaves a store that remembers it. -/
theorem of_idle (h : Remembers Sound s past) {op : Operation}
    (hop : ∀ id, isValidId id = true → op.writes id = false) :
    Remembers Sound s (past ++ [op]) := by
  refine ⟨h.sound, ?_⟩
  intro id r
  rw [h.record?_iff, lastPut_append_singleton]
  refine and_congr_right fun hid => and_congr_right fun hr => ?_
  subst hr
  have hwrites := hop r.id hid
  constructor
  · exact fun hlast => Or.inr ⟨hlast, hwrites⟩
  · rintro (rfl | ⟨hlast, -⟩)
    · simp [Operation.writes] at hwrites
    · exact hlast

/-- An operation that writes under one id, and leaves there the record it puts if it puts one,
leaves a store that remembers it. -/
theorem write (h : Remembers Sound s past) {op : Operation} {id : String} (new : Option Record)
    {s' : σ} (hs : Sound s') (hwrites : ∀ other, op.writes other = (id == other))
    (hnew : ∀ r, new = some r ↔ op = .put r) (hvalid : ∀ r, new = some r → isValidId id = true)
    (hleft : ∀ other, record? s' other = if other = id then new else record? s other) :
    Remembers Sound s' (past ++ [op]) := by
  have hputs : ∀ r, op = .put r → id = r.id := by
    intro r hput
    have hself : op.writes r.id = true := by rw [hput]; exact beq_self_eq_true r.id
    rw [hwrites] at hself
    exact eq_of_beq hself
  refine ⟨hs, ?_⟩
  intro other r
  rw [hleft, lastPut_append_singleton]
  -- the written id is told by this operation, every other one by the past
  by_cases heq : other = id
  · subst heq
    rw [if_pos rfl]
    constructor
    · intro hr
      have hput := (hnew r).mp hr
      exact ⟨hvalid r hr, (hputs r hput).symm, Or.inl hput⟩
    · rintro ⟨-, hr, hput | ⟨-, hleaves⟩⟩
      · exact (hnew r).mpr hput
      · rw [hwrites, hr, beq_self_eq_true] at hleaves
        cases hleaves
  · rw [if_neg heq, h.record?_iff]
    refine and_congr_right fun _ => and_congr_right fun hr => ?_
    subst hr
    constructor
    · intro hlast
      refine Or.inr ⟨hlast, ?_⟩
      rw [hwrites]
      exact beq_false_of_ne (Ne.symm heq)
    · rintro (hput | ⟨hlast, -⟩)
      · exact absurd (hputs r hput).symm heq
      · exact hlast

/-- Every operation, whatever its ids, leaves a store that remembers it. -/
theorem serve (laws : Laws σ Sound Holds) (refusals : Refusals σ) (h : Remembers Sound s past)
    {op : Operation} (hop : ∀ r, op = .put r → Holds r) :
    Remembers Sound (serve s op).2 (past ++ [op]) := by
  cases op with
  | put r =>
      cases hid : isValidId r.id with
      | false =>
          simp only [Store.serve, refusals.put hid]
          refine h.of_idle fun id hvalid => beq_false_of_ne fun heq => ?_
          rw [heq, hvalid] at hid
          cases hid
      | true =>
          obtain ⟨s', hput, hs', hleft⟩ := laws.put h.sound hid (hop r rfl)
          simp only [Store.serve, hput]
          refine h.write (some r) hs' (fun other => rfl) ?_ (fun _ _ => hid) hleft
          intro r'
          rw [Option.some.injEq, Operation.put.injEq]
  | delete id =>
      cases hr : record? s id with
      | none =>
          obtain ⟨e, he⟩ := laws.delete_absent h.sound hr
          simp only [Store.serve, he]
          refine h.write none h.sound (fun other => rfl) (by simp) (by simp) ?_
          intro other
          split
          case isTrue heq => rw [heq, hr]
          case isFalse => rfl
      | some r =>
          obtain ⟨s', hdelete, hs', hleft⟩ := laws.delete h.sound hr
          simp only [Store.serve, hdelete]
          exact h.write none hs' (fun other => rfl) (by simp) (by simp) hleft
  | get id => exact h.of_idle fun _ _ => rfl
  | list => exact h.of_idle fun _ _ => rfl
  | contains id => exact h.of_idle fun _ _ => rfl

/-- A store goes on remembering, operation by operation. -/
theorem afterAll (laws : Laws σ Sound Holds) (refusals : Refusals σ) {ops : List Operation}
    (h : Remembers Sound s past) (hops : Puts Holds ops) :
    Remembers Sound (afterAll s ops) (past ++ ops) := by
  induction ops generalizing s past with
  | nil => rwa [List.append_nil]
  | cons op ops ih =>
      have hop : ∀ r, op = .put r → Holds r := by
        rintro r rfl
        exact hops r (List.mem_cons_self ..)
      have hrest := ih (h.serve laws refusals hop) fun r hr => hops r (List.mem_cons_of_mem _ hr)
      rwa [List.append_assoc, List.singleton_append] at hrest

end Remembers

-- ================================================================ the map

/-- The store is the map that its past has left. Under a usable id there is the record put
last, unless it has been deleted since, and nothing else is said to be there; the ids are
listed in ascending order, each once; and what is done under one id changes nothing under
another. -/
structure Faithful (Holds : Record → Prop) (s : σ) (past : List Operation) : Prop where
  get : ∀ r, isValidId r.id = true → LastPut past r → Store.get s r.id = .ok r
  get_absent : ∀ id, isValidId id = true → (∀ r, LastPut past r → r.id ≠ id) →
    Store.get s id = .error (.notFound id)
  contains : ∀ id, isValidId id = true →
    ∃ b, Store.contains s id = .ok b ∧ (b = true ↔ ∃ r, Store.get s id = .ok r)
  list : ∃ ids, Store.list s = .ok ids ∧ ids.Pairwise (· < ·)
    ∧ ∀ id, id ∈ ids ↔ ∃ r, Store.get s id = .ok r
  put : ∀ r, isValidId r.id = true → Holds r →
    ∃ s', Store.put s r = .ok s' ∧ Store.get s' r.id = .ok r
      ∧ ∀ id, isValidId id = true → id ≠ r.id → Store.get s' id = Store.get s id
  delete : ∀ id r, isValidId id = true → Store.get s id = .ok r →
    ∃ s', Store.delete s id = .ok (r, s') ∧ Store.get s' id = .error (.notFound id)
      ∧ ∀ other, isValidId other = true → other ≠ id → Store.get s' other = Store.get s other
  delete_absent : ∀ id e, Store.get s id = .error e → Store.delete s id = .error e

/-- What can be read under an id in two stores is got alike. -/
theorem Laws.get_congr (laws : Laws σ Sound Holds) {s' : σ} (hs : Sound s) (hs' : Sound s')
    {id : String} (hid : isValidId id = true) (h : record? s' id = record? s id) :
    Store.get s' id = Store.get s id := by
  rw [laws.get_eq hs' hid, laws.get_eq hs hid, h]

/-- There is a record under an id where it can be got. -/
theorem isSome_record?_iff {id : String} :
    (record? s id).isSome = true ↔ ∃ r, Store.get s id = .ok r := by
  rw [Option.isSome_iff_exists]
  exact exists_congr fun r => get_eq_ok_iff.symm

/-- A store that remembers what was asked is faithful to it. -/
theorem Remembers.faithful (laws : Laws σ Sound Holds) (refusals : Refusals σ)
    (h : Remembers Sound s past) : Faithful Holds s past where
  get r hid hlast := get_eq_ok_iff.mpr (h.record?_iff.mpr ⟨hid, rfl, hlast⟩)
  get_absent id hid hnone := by
    refine laws.get_absent h.sound hid (Option.eq_none_iff_forall_ne_some.mpr fun r hr => ?_)
    obtain ⟨-, hrid, hlast⟩ := h.record?_iff.mp hr
    exact hnone r hlast hrid
  contains id hid := ⟨_, laws.contains h.sound hid, isSome_record?_iff⟩
  list := by
    obtain ⟨ids, hids, hascending, hmem⟩ := laws.list h.sound
    exact ⟨ids, hids, hascending, fun id => (hmem id).trans isSome_record?_iff⟩
  put r hid hr := by
    obtain ⟨s', hput, hs', hleft⟩ := laws.put h.sound hid hr
    refine ⟨s', hput, get_eq_ok_iff.mpr ((hleft r.id).trans (if_pos rfl)), ?_⟩
    intro id hvalid hne
    exact laws.get_congr h.sound hs' hvalid ((hleft id).trans (if_neg hne))
  delete id r hid hr := by
    obtain ⟨s', hdelete, hs', hleft⟩ := laws.delete h.sound (get_eq_ok_iff.mp hr)
    refine ⟨s', hdelete, laws.get_absent hs' hid ((hleft id).trans (if_pos rfl)), ?_⟩
    intro other hvalid hne
    exact laws.get_congr h.sound hs' hvalid ((hleft other).trans (if_neg hne))
  delete_absent _ _ he := refusals.delete he

end EventScript.Store
