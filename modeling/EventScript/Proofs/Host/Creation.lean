/-
Creating programs on a store that several hosts share. A call of `create` asks the store twice:
whether the id is free, and, once the source has compiled, to put the record. Between the two the
store belongs to whoever asks next. A schedule is the list of the calls in the order in which they
do their next operation, so every way in which calls may come in between each other is one.

Nothing ties the second operation to the first. A call that looks after another has put is told
that the program exists; but two calls that both look before either puts are both answered with
success, and of the two records the one put last stays. That is the only way for two calls to
succeed.
-/
import EventScript.Proofs.Host.Stores
import Mathlib.Logic.Function.Basic

namespace EventScript.Host

open Store (Record isValidId record?)

variable {σ : Type} [Store σ]

-- ================================================================ one call

/-- How far a call of `create` has come. -/
inductive Creation.Phase where
  | called
  /-- The id was free and the source compiles; the record is still to be put. -/
  | accepted (r : Record)
  | answered (answer : Except HostError Record)

/-- A call of `create` on a host, without the store that the host shares with others. -/
structure Creation where
  registry : Registry
  settings : Settings
  world : World
  source : String
  cast : Cast
  phase : Creation.Phase := .called

namespace Creation

/-- The host with the store as it is now. -/
def host (c : Creation) (s : σ) : Host σ :=
  { store := s, registry := c.registry, settings := c.settings, world := c.world }

/-- The record that the call is to store. -/
def offer (c : Creation) (id : String) : Record := ⟨id, c.source, c.cast, c.world.now⟩

/-- The record that the call has returned, if it has returned one. -/
def returned? (c : Creation) : Option Record :=
  match c.phase with
  | .answered (.ok r) => some r
  | _ => none

/-- The store and the call after the next operation of the call on the store. -/
def move (id : String) (s : σ) (c : Creation) : σ × Creation :=
  match c.phase with
  | .called => match (c.host s).accept id c.source c.cast with
    | .error e => (s, { c with phase := .answered (.error e) })
    | .ok r => (s, { c with phase := .accepted r })
  | .accepted r =>
    let (answer, h) := (c.host s).keep "Created" r
    (h.store, { c with world := h.world, phase := .answered answer })
  | .answered _ => (s, c)

variable {c : Creation} {id : String} {s : σ}

/-- The move of a creation that was accepted puts the record. -/
theorem move_of_accepted {r : Record} (h : c.phase = .accepted r) :
    c.move id s = (((c.host s).keep "Created" r).2.store,
      { c with
        world := ((c.host s).keep "Created" r).2.world
        phase := .answered ((c.host s).keep "Created" r).1 }) := by
  unfold move
  rw [h]

/-- A creation that was answered moves no more. -/
theorem move_of_answered {answer : Except HostError Record} (h : c.phase = .answered answer) :
    c.move id s = (s, c) := by
  unfold move
  rw [h]

/-- Two operations in a row are the whole call, as the host does it. -/
theorem create_eq_moves (h : c.phase = .called) :
    let once := c.move id s
    let twice := once.2.move id once.1
    ∃ answer, twice.2.phase = .answered answer
      ∧ (c.host s).create id c.source c.cast = (answer, twice.2.host twice.1) := by
  intro once twice
  have honce : once = match (c.host s).accept id c.source c.cast with
      | .error e => (s, { c with phase := .answered (.error e) })
      | .ok r => (s, { c with phase := .accepted r }) := by
    show c.move id s = _
    rw [move, h]
  have htwice : twice = once.2.move id once.1 := rfl
  unfold create
  cases haccept : (c.host s).accept id c.source c.cast with
  | error e =>
      rw [haccept] at honce
      rw [htwice, honce, move_of_answered rfl]
      exact ⟨_, rfl, rfl⟩
  | ok r =>
      rw [haccept] at honce
      have hrules := (c.host s).keep_sameRules "Created" r
      have hregistry : ((c.host s).keep "Created" r).2.registry = c.registry := hrules.registry
      have hsettings : ((c.host s).keep "Created" r).2.settings = c.settings := hrules.settings
      rw [htwice, honce, move_of_accepted rfl]
      refine ⟨_, rfl, Prod.ext rfl ?_⟩
      show ((c.host s).keep "Created" r).2 = { ((c.host s).keep "Created" r).2 with
        registry := c.registry
        settings := c.settings }
      rw [← hregistry, ← hsettings]

-- what each operation does, by how far the call has come

/-- The first move looks at the store and changes nothing in it: the creation is accepted there
if all is well, else refused. -/
theorem move_of_called (h : c.phase = .called) (id : String) (s : σ) : ∃ phase,
    c.move id s = (s, { c with phase })
      ∧ (phase = .accepted (c.offer id) ∧ isValidId id = true
          ∧ Store.contains s id = .ok false ∧ (c.host s).Compiles c.source
        ∨ ∃ e, phase = .answered (.error e)) := by
  unfold move
  rw [h]
  cases haccept : (c.host s).accept id c.source c.cast with
  | error e => exact ⟨_, rfl, .inr ⟨e, rfl⟩⟩
  | ok r =>
      obtain ⟨hid, hfree, hcompiles, rfl⟩ := accept_eq_ok.mp haccept
      exact ⟨_, rfl, .inl ⟨rfl, Store.checkId_eq_ok_iff.mp hid, hfree, hcompiles⟩⟩

/-- A call that finds the id taken is told so. -/
theorem move_of_taken (h : c.phase = .called) (hid : isValidId id = true)
    (htaken : Store.contains s id = .ok true) :
    c.move id s
      = (s, { c with phase := .answered (.error (.store (.alreadyExists id))) }) := by
  have haccept : (c.host s).accept id c.source c.cast
      = .error (.store (.alreadyExists id)) := by
    unfold accept
    rw [Store.checkId_eq_ok_iff.mpr hid]
    dsimp only [host]
    rw [htaken]
  unfold move
  rw [h]
  dsimp only
  rw [haccept]

theorem keep_now (h : Host σ) (done : String) (r : Record) :
    (h.keep done r).2.world.now = h.world.now := by
  unfold keep
  cases Store.put h.store r with
  | error e => rfl
  | ok store =>
      dsimp only
      split
      · rfl
      · rfl

/-- Where the store takes the record, the creation is answered with it. -/
theorem move_of_put {r : Record} {s' : σ} (h : c.phase = .accepted r)
    (hput : Store.put s r = .ok s') (id : String) : ∃ world, world.now = c.world.now
      ∧ c.move id s = (s', { c with world, phase := .answered (.ok r) }) := by
  obtain ⟨hanswer, hstore⟩ := keep_of_put (h := c.host s) hput "Created"
  refine ⟨_, keep_now (c.host s) "Created" r, ?_⟩
  rw [move_of_accepted h, hanswer, hstore]

variable {Sound : σ → Prop} {Holds : Record → Prop}

/-- A call puts its record and returns it, or it leaves the store as it is and returns none; and
it goes on to put one only if it finds none. -/
theorem move_cases (laws : Store.Laws σ Sound Holds) (hs : Sound s) (hr : Holds (c.offer id))
    (haccepted : ∀ r, c.phase = .accepted r → r = c.offer id ∧ isValidId id = true) :
    (c.move id s).2.offer id = c.offer id
      ∧ ((∃ r, c.phase = .accepted r) ∧ isValidId id = true ∧ Sound (c.move id s).1
          ∧ (∀ other, record? (c.move id s).1 other
            = if other = id then some (c.offer id) else record? s other)
          ∧ (c.move id s).2.phase = .answered (.ok (c.offer id))
        ∨ (∀ r, c.phase ≠ .accepted r) ∧ (c.move id s).1 = s
          ∧ (c.move id s).2.returned? = c.returned?
          ∧ ∀ r, (c.move id s).2.phase = .accepted r →
            r = c.offer id ∧ isValidId id = true ∧ record? s id = none) := by
  cases hphase : c.phase with
  | called =>
      obtain ⟨phase, hmove, hnext⟩ := move_of_called hphase id s
      have hreturned : c.returned? = none := by rw [returned?, hphase]
      rw [hmove]
      refine ⟨rfl, .inr ⟨fun r => Phase.noConfusion, rfl, ?_, ?_⟩⟩
      · rw [hreturned]
        rcases hnext with ⟨rfl, -⟩ | ⟨e, rfl⟩
        · rfl
        · rfl
      · intro r hr
        rcases hnext with ⟨rfl, hid, hfree, -⟩ | ⟨e, rfl⟩
        · rw [laws.contains hs hid] at hfree
          exact ⟨(Phase.accepted.inj hr).symm, hid, by simpa using Except.ok.inj hfree⟩
        · cases hr
  | accepted r =>
      obtain ⟨rfl, hid⟩ := haccepted r hphase
      obtain ⟨s', hput, hs', hrecords⟩ := laws.put hs hid hr
      obtain ⟨world, hnow, hmove⟩ := move_of_put hphase hput id
      rw [hmove]
      refine ⟨?_, .inl ⟨⟨_, rfl⟩, hid, hs', hrecords, rfl⟩⟩
      show Record.mk _ _ _ world.now = _
      rw [hnow]
      rfl
  | answered answer =>
      rw [move_of_answered hphase]
      refine ⟨rfl, .inr ⟨fun r => Phase.noConfusion, rfl, rfl, fun r hr => ?_⟩⟩
      rw [hphase] at hr
      cases hr

end Creation

-- =============================================================== the schedule

/-- Calls of `create` for one id, and the store that their hosts share. -/
structure Shared (ι σ : Type) where
  store : σ
  creations : ι → Creation

namespace Shared

/-- The call, if its next operation is to put its record. -/
def keeps {ι : Type} (y : Shared ι σ) (i : ι) : List ι :=
  match (y.creations i).phase with
  | .accepted _ => [i]
  | _ => []

section

omit [Store σ]

variable {ι : Type} {y : Shared ι σ} {i : ι}

/-- A creation that was accepted keeps its record with its next move. -/
theorem keeps_of_accepted {r : Record} (h : (y.creations i).phase = .accepted r) :
    y.keeps i = [i] := by
  unfold keeps
  rw [h]

theorem keeps_of_not_accepted (h : ∀ r, (y.creations i).phase ≠ .accepted r) :
    y.keeps i = [] := by
  unfold keeps
  split
  · next r hphase => exact absurd hphase (h r)
  · rfl

/-- A move keeps the record of the creation that moves, if that was accepted. -/
theorem mem_keeps {j : ι} :
    j ∈ y.keeps i ↔ j = i ∧ ∃ r, (y.creations i).phase = .accepted r := by
  unfold keeps
  split
  · next r hphase => exact ⟨fun h => ⟨List.mem_singleton.mp h, r, hphase⟩,
      fun h => List.mem_singleton.mpr h.1⟩
  · next hnot => exact ⟨fun h => (List.not_mem_nil h).elim, fun h => (hnot _ h.2.choose_spec).elim⟩

end

variable {ι : Type} [DecidableEq ι] (id : String)

/-- One of the calls does its next operation. -/
def move (y : Shared ι σ) (i : ι) : Shared ι σ :=
  let after := (y.creations i).move id y.store
  ⟨after.1, Function.update y.creations i after.2⟩

/-- The calls do their operations as the schedule says. -/
def run (y : Shared ι σ) (schedule : List ι) : Shared ι σ := schedule.foldl (move id) y

/-- The calls that put their records on a schedule, in the order in which they do so. -/
def kept (y : Shared ι σ) : List ι → List ι
  | [] => []
  | i :: later => y.keeps i ++ (y.move id i).kept later

variable {id : String} {y : Shared ι σ}

theorem move_self (y : Shared ι σ) (i : ι) :
    (y.move id i).creations i = ((y.creations i).move id y.store).2 :=
  Function.update_self ..

theorem move_other {i j : ι} (h : j ≠ i) : (y.move id i).creations j = y.creations j :=
  Function.update_of_ne h ..

variable {Sound : σ → Prop} {Holds : Record → Prop}

/-- The store is sound, what is still to be put are the records of the calls, and where a call
has returned its own there is one in the store. -/
structure Coherent (Sound : σ → Prop) (Holds : Record → Prop) (id : String)
    (y : Shared ι σ) : Prop where
  sound : Sound y.store
  holds : ∀ i, Holds ((y.creations i).offer id)
  accepted : ∀ i r, (y.creations i).phase = .accepted r →
    r = (y.creations i).offer id ∧ isValidId id = true
  returned : ∀ i r, (y.creations i).returned? = some r →
    isValidId id = true ∧ (record? y.store id).isSome = true

section

variable (laws : Store.Laws σ Sound Holds) (hy : y.Coherent Sound Holds id)

include laws hy

/-- A move puts the record of the call that makes it, or no record. -/
theorem Coherent.record?_move (i : ι) (other : String) :
    record? (y.move id i).store other
      = if other = id then
          ((y.keeps i).getLast?.map fun j => (y.creations j).offer id).or (record? y.store id)
        else record? y.store other := by
  obtain ⟨-, hput | hleft⟩ := Creation.move_cases laws hy.sound (hy.holds i) (hy.accepted i)
  · obtain ⟨⟨r, hphase⟩, -, -, hrecords, -⟩ := hput
    rw [keeps_of_accepted hphase]
    exact hrecords other
  · obtain ⟨hphase, hstore, -⟩ := hleft
    rw [keeps_of_not_accepted hphase]
    show record? ((y.creations i).move id y.store).1 other = _
    rw [hstore]
    split
    case isTrue heq => rw [heq]; rfl
    case isFalse => rfl

/-- What a creation offers does not change. -/
theorem Coherent.offer_move (i j : ι) :
    ((y.move id i).creations j).offer id = (y.creations j).offer id := by
  by_cases hij : j = i
  · subst hij
    rw [move_self]
    exact (Creation.move_cases laws hy.sound (hy.holds j) (hy.accepted j)).1
  · rw [move_other hij]

/-- A call returns a record with the move that puts it. -/
theorem Coherent.returned?_move (i j : ι) :
    ((y.move id i).creations j).returned?
      = if j ∈ y.keeps i then some ((y.creations j).offer id) else (y.creations j).returned? := by
  obtain ⟨-, hput | hleft⟩ := Creation.move_cases laws hy.sound (hy.holds i) (hy.accepted i)
  · obtain ⟨⟨r, hphase⟩, -, -, -, hanswer⟩ := hput
    rw [keeps_of_accepted hphase]
    by_cases hij : j = i
    · subst hij
      rw [move_self, if_pos (List.mem_singleton_self j), Creation.returned?, hanswer]
    · rw [move_other hij, if_neg fun h => hij (List.mem_singleton.mp h)]
  · obtain ⟨hphase, -, hreturned, -⟩ := hleft
    rw [keeps_of_not_accepted hphase, if_neg List.not_mem_nil]
    by_cases hij : j = i
    · subst hij
      rw [move_self, hreturned]
    · rw [move_other hij]

/-- A call that is about to put its record was so before, or it has found the id free. -/
theorem Coherent.accepted_move {i j : ι} {r : Record}
    (h : ((y.move id i).creations j).phase = .accepted r) :
    (j ≠ i ∧ (y.creations j).phase = .accepted r)
      ∨ r = (y.creations j).offer id ∧ isValidId id = true ∧ record? y.store id = none := by
  by_cases hij : j = i
  · subst hij
    rw [move_self] at h
    obtain ⟨-, hput | hleft⟩ := Creation.move_cases laws hy.sound (hy.holds j) (hy.accepted j)
    · obtain ⟨-, -, -, -, hanswer⟩ := hput
      rw [hanswer] at h
      cases h
    · obtain ⟨-, -, -, hnext⟩ := hleft
      exact .inr (hnext r h)
  · rw [move_other hij] at h
    exact .inl ⟨hij, h⟩

/-- A record under the id stays there, though it may be replaced. -/
theorem Coherent.isSome_move (h : (record? y.store id).isSome = true) (i : ι) :
    (record? (y.move id i).store id).isSome = true := by
  rw [hy.record?_move laws, if_pos rfl, Option.isSome_or, h, Bool.or_true]

/-- A move keeps the invariant. -/
theorem Coherent.move (i : ι) : (y.move id i).Coherent Sound Holds id where
  sound := by
    obtain ⟨-, hput | hleft⟩ := Creation.move_cases laws hy.sound (hy.holds i) (hy.accepted i)
    · exact hput.2.2.1
    · show Sound ((y.creations i).move id y.store).1
      rw [hleft.2.1]
      exact hy.sound
  holds := fun j => by
    rw [hy.offer_move laws]
    exact hy.holds j
  accepted := fun j r h => by
    rw [hy.offer_move laws]
    rcases hy.accepted_move laws h with ⟨-, hbefore⟩ | ⟨hr, hid, -⟩
    · exact hy.accepted j r hbefore
    · exact ⟨hr, hid⟩
  returned := fun j r h => by
    rw [hy.returned?_move laws] at h
    split at h
    case isTrue hkeeps =>
      obtain ⟨-, r, hphase⟩ := mem_keeps.mp hkeeps
      refine ⟨(hy.accepted i r hphase).2, ?_⟩
      rw [hy.record?_move laws, if_pos rfl, keeps_of_accepted hphase]
      rfl
    case isFalse =>
      obtain ⟨hid, hthere⟩ := hy.returned j r h
      exact ⟨hid, hy.isSome_move laws hthere i⟩

/-- So does every schedule. -/
theorem Coherent.run (schedule : List ι) : (y.run id schedule).Coherent Sound Holds id := by
  induction schedule generalizing y with
  | nil => exact hy
  | cons i later ih => exact ih (hy.move laws i)

/-- The record there is that of the call that put last. -/
theorem Coherent.record?_run (schedule : List ι) (other : String) :
    record? (y.run id schedule).store other
      = if other = id then
          ((y.kept id schedule).getLast?.map fun j => (y.creations j).offer id).or
            (record? y.store id)
        else record? y.store other := by
  induction schedule generalizing y with
  | nil =>
      split
      case isTrue heq => rw [heq]; rfl
      case isFalse => rfl
  | cons i later ih =>
      have hlater := ih (hy.move laws i)
      simp only [hy.offer_move laws] at hlater
      show record? ((y.move id i).run id later).store other = _
      rw [hlater, hy.record?_move laws i id, hy.record?_move laws i other, if_pos rfl, kept,
        List.getLast?_append]
      split
      · cases ((y.move id i).kept id later).getLast? with
        | none => rfl
        | some j => rfl
      · rfl

/-- The calls that have returned a record are those that have put theirs. -/
theorem Coherent.returned?_run (schedule : List ι) (j : ι) :
    ((y.run id schedule).creations j).returned?
      = if j ∈ y.kept id schedule then some ((y.creations j).offer id)
        else (y.creations j).returned? := by
  induction schedule generalizing y with
  | nil => rfl
  | cons i later ih =>
      show (((y.move id i).run id later).creations j).returned? = _
      rw [ih (hy.move laws i), hy.offer_move laws, hy.returned?_move laws, kept]
      by_cases hlater : j ∈ (y.move id i).kept id later
      · rw [if_pos hlater, if_pos (List.mem_append_right _ hlater)]
      · rw [if_neg hlater]
        simp only [List.mem_append, hlater, or_false]

/-- A call that is about to put its record does so when it gets to. -/
theorem Coherent.returned?_of_accepted {j : ι} {r : Record}
    (hj : (y.creations j).phase = .accepted r) {schedule : List ι} (hmem : j ∈ schedule) :
    ((y.run id schedule).creations j).returned? = some ((y.creations j).offer id) := by
  rw [hy.returned?_run laws, if_pos]
  induction schedule generalizing y with
  | nil => cases hmem
  | cons i later ih =>
      rw [kept]
      by_cases hij : j = i
      · subst hij
        rw [keeps_of_accepted hj]
        exact List.mem_append_left _ (List.mem_singleton_self j)
      · refine List.mem_append_right _ (ih (hy.move laws i) ?_ ?_)
        · rw [move_other hij]
          exact hj
        · exact (List.mem_cons.mp hmem).resolve_left hij

/-- Once there is a record, a call that is not about to put its own does not succeed. -/
theorem Coherent.returned?_of_late {j : ι} (hthere : (record? y.store id).isSome = true)
    (hj : ∀ r, (y.creations j).phase ≠ .accepted r) (schedule : List ι) :
    ((y.run id schedule).creations j).returned? = (y.creations j).returned? := by
  induction schedule generalizing y with
  | nil => rfl
  | cons i later ih =>
      have hnext : ∀ r, ((y.move id i).creations j).phase ≠ .accepted r := by
        intro r hr
        rcases hy.accepted_move laws hr with ⟨-, hbefore⟩ | ⟨-, -, hfree⟩
        · exact hj r hbefore
        · rw [hfree] at hthere
          cases hthere
      refine (ih (hy.move laws i) (hy.isSome_move laws hthere i) hnext).trans ?_
      rw [hy.returned?_move laws, if_neg]
      intro hkeeps
      obtain ⟨rfl, r, hphase⟩ := mem_keeps.mp hkeeps
      exact hj r hphase

end

-- ================================================================ the answers

theorem run_append (y : Shared ι σ) (before later : List ι) :
    y.run id (before ++ later) = (y.run id before).run id later :=
  List.foldl_append

/-- A call that does not move stays as it is. -/
theorem run_of_not_mem {j : ι} {schedule : List ι} (h : j ∉ schedule) :
    (y.run id schedule).creations j = y.creations j := by
  induction schedule generalizing y with
  | nil => rfl
  | cons i later ih =>
      have hij : j ≠ i := fun heq => h (heq ▸ List.mem_cons_self ..)
      exact (ih fun hlater => h (List.mem_cons_of_mem _ hlater)).trans (move_other hij)

section

omit [DecidableEq ι]

/-- Calls that have done nothing yet are coherent with a sound store. -/
theorem coherent_of_called (hcalled : ∀ i, (y.creations i).phase = .called)
    (hs : Sound y.store) (hr : ∀ i, Holds ((y.creations i).offer id)) :
    y.Coherent Sound Holds id := by
  refine ⟨hs, hr, fun i r h => ?_, fun i r h => ?_⟩
  · rw [hcalled i] at h
    cases h
  · rw [Creation.returned?, hcalled i] at h
    cases h

end

/-- At some point of the schedule both calls have found the id free and neither has put. -/
def Overlap (id : String) (y : Shared ι σ) (schedule : List ι) (i j : ι) : Prop :=
  ∃ before later, schedule = before ++ later
    ∧ (∃ r, ((y.run id before).creations i).phase = .accepted r)
    ∧ (∃ r, ((y.run id before).creations j).phase = .accepted r)
    ∧ i ∈ later ∧ j ∈ later

theorem Overlap.symm {schedule : List ι} {i j : ι} (h : y.Overlap id schedule i j) :
    y.Overlap id schedule j i := by
  obtain ⟨before, later, heq, hi, hj, hmemi, hmemj⟩ := h
  exact ⟨before, later, heq, hj, hi, hmemj, hmemi⟩

/-- What overlaps later overlaps in the whole schedule. -/
theorem Overlap.cons {later : List ι} {i j k : ι} (h : (y.move id k).Overlap id later i j) :
    y.Overlap id (k :: later) i j := by
  obtain ⟨before, rest, rfl, hi, hj, hmem⟩ := h
  exact ⟨k :: before, rest, rfl, hi, hj, hmem⟩

/-- Where a call puts and another one still succeeds, the other had found the id free already. -/
theorem Coherent.overlap_of_put (laws : Store.Laws σ Sound Holds)
    (hy : y.Coherent Sound Holds id) {i j : ι} (hij : i ≠ j) {r : Record}
    (hi : (y.creations i).phase = .accepted r) (hj : (y.creations j).returned? = none)
    {later : List ι}
    (hsucceeds : (((y.move id i).run id later).creations j).returned?.isSome = true) :
    y.Overlap id (i :: later) i j := by
  have hsame : (y.move id i).creations j = y.creations j := move_other hij.symm
  have hmem : j ∈ later := by
    by_contra hnot
    rw [run_of_not_mem hnot, hsame, hj] at hsucceeds
    cases hsucceeds
  have haccepted : ∃ r, (y.creations j).phase = .accepted r := by
    by_contra hnot
    have hthere : (record? (y.move id i).store id).isSome = true := by
      rw [hy.record?_move laws, if_pos rfl, keeps_of_accepted hi]
      rfl
    rw [(hy.move laws i).returned?_of_late laws hthere, hsame, hj] at hsucceeds
    · cases hsucceeds
    · rw [hsame]
      exact fun r hr => hnot ⟨r, hr⟩
  exact ⟨[], i :: later, rfl, ⟨r, hi⟩, haccepted, List.mem_cons_self ..,
    List.mem_cons_of_mem _ hmem⟩

/-- Two calls succeed only if they overlap. -/
theorem Coherent.overlap_of_returned (laws : Store.Laws σ Sound Holds)
    (hy : y.Coherent Sound Holds id) {i j : ι} (hij : i ≠ j)
    (hi : (y.creations i).returned? = none) (hj : (y.creations j).returned? = none)
    {schedule : List ι}
    (hsi : ((y.run id schedule).creations i).returned?.isSome = true)
    (hsj : ((y.run id schedule).creations j).returned?.isSome = true) :
    y.Overlap id schedule i j := by
  induction schedule generalizing y with
  | nil =>
      rw [show y.run id [] = y from rfl, hi] at hsi
      cases hsi
  | cons k later ih =>
      by_cases hput : ∃ r, (y.creations k).phase = .accepted r
      · obtain ⟨r, hput⟩ := hput
        by_cases hki : i = k
        · subst hki
          exact hy.overlap_of_put laws hij hput hj hsj
        · by_cases hkj : j = k
          · subst hkj
            exact (hy.overlap_of_put laws hij.symm hput hi hsi).symm
          · refine .cons (ih (hy.move laws k) ?_ ?_ hsi hsj)
            · rw [move_other hki, hi]
            · rw [move_other hkj, hj]
      · -- nobody puts with this move, so both are still to succeed
        have hnone : ∀ l, l ∉ y.keeps k := fun l hl => hput (mem_keeps.mp hl).2
        refine .cons (ih (hy.move laws k) ?_ ?_ hsi hsj)
        · rw [hy.returned?_move laws, if_neg (hnone i), hi]
        · rw [hy.returned?_move laws, if_neg (hnone j), hj]

/-- Any number of calls of `create` for one id, on hosts that share a store without a record
under it, and any schedule of their operations. The record that is stored then is the one that
the call returned that put last, and every call that succeeded has returned its own; no other
record changes. Two calls succeed exactly if at some point both have found the id free and
neither has put, and a call that looks after one has succeeded is told that the program exists. -/
theorem create_on_shared_store (laws : Store.Laws σ Sound Holds)
    (hcalled : ∀ i, (y.creations i).phase = .called) (hs : Sound y.store)
    (hfree : record? y.store id = none) (hr : ∀ i, Holds ((y.creations i).offer id))
    (schedule : List ι) :
    let after := y.run id schedule
    record? after.store id
        = ((y.kept id schedule).getLast?.bind fun i => (after.creations i).returned?)
      ∧ (∀ i r, (after.creations i).returned? = some r →
        i ∈ y.kept id schedule ∧ r = (y.creations i).offer id)
      ∧ (∀ other, other ≠ id → record? after.store other = record? y.store other)
      ∧ (∀ i j, i ≠ j →
        ((after.creations i).returned?.isSome = true ∧ (after.creations j).returned?.isSome = true
          ↔ y.Overlap id schedule i j))
      ∧ ∀ i j, (after.creations i).returned?.isSome = true → (after.creations j).phase = .called →
        ((after.creations j).move id after.store)
          = (after.store, { after.creations j with
            phase := .answered (.error (.store (.alreadyExists id))) }) := by
  intro after
  have hnone : ∀ i, (y.creations i).returned? = none := by
    intro i
    rw [Creation.returned?, hcalled i]
  have hy : y.Coherent Sound Holds id := coherent_of_called hcalled hs hr
  have hafter : after.Coherent Sound Holds id := hy.run laws schedule
  -- a call has its record back exactly where its write was kept
  have hreturned : ∀ i, (after.creations i).returned?
      = if i ∈ y.kept id schedule then some ((y.creations i).offer id) else none := by
    intro i
    rw [hy.returned?_run laws, hnone i]
  refine ⟨?_, fun i r h => ?_, fun other hne => ?_, fun i j hij => ⟨fun h => ?_, fun h => ?_⟩,
    fun i j hi hj => ?_⟩
  · rw [hy.record?_run laws, if_pos rfl, hfree, Option.or_none]
    cases hlast : (y.kept id schedule).getLast? with
    | none => rfl
    | some i =>
        rw [Option.map_some, Option.bind_some, hreturned i,
          if_pos (List.mem_of_getLast? hlast)]
  · rw [hreturned i] at h
    split at h
    case isTrue hmem => exact ⟨hmem, (Option.some.inj h).symm⟩
    case isFalse => cases h
  · rw [hy.record?_run laws, if_neg hne]
  · exact hy.overlap_of_returned laws hij (hnone i) (hnone j) h.1 h.2
  · obtain ⟨before, later, rfl, ⟨r, hi⟩, ⟨r', hj⟩, hmemi, hmemj⟩ := h
    -- both calls are accepted while the id is free, so both write
    have hbefore := hy.run laws before
    show ((y.run id (before ++ later)).creations i).returned?.isSome = true
      ∧ ((y.run id (before ++ later)).creations j).returned?.isSome = true
    rw [run_append, hbefore.returned?_of_accepted laws hi hmemi,
      hbefore.returned?_of_accepted laws hj hmemj]
    exact ⟨rfl, rfl⟩
  · obtain ⟨r, hi⟩ := Option.isSome_iff_exists.mp hi
    obtain ⟨hid, hthere⟩ := hafter.returned i r hi
    refine Creation.move_of_taken hj hid ?_
    rw [laws.contains hafter.sound hid, hthere]

/-- Two hosts on one folder, about to create a program each under the same id. -/
def rivals : Shared Bool FileStore where
  store := ⟨[], "data"⟩
  creations first :=
    { registry := .builtin 16
      settings := {}
      world := {}
      source := "version: \"1\"\nprogram:\n  - set:\n      variable: seen\n      value: true\n"
      cast := { id := if first then "first" else "second" } }

theorem rivals_holds (first : Bool) : ((rivals.creations first).offer "p").Representable := by
  have hepoch : Timestamp.epoch.Representable := ⟨by decide +kernel, by decide⟩
  exact ⟨by simp [rivals, Creation.offer, Cast.Representable], hepoch⟩

theorem rivals_coherent :
    rivals.Coherent FileStore.Sound Store.Record.Representable "p" :=
  coherent_of_called (fun _ => rfl) (FileStore.sound_empty "data") rivals_holds

/-- The first call is over before the second one looks, and succeeds alone. -/
theorem create_on_shared_store_in_turn :
    let after := rivals.run "p" [true, true]
    (∀ first, (rivals.creations first).phase = .called) ∧ FileStore.Sound rivals.store
      ∧ record? rivals.store "p" = none
      ∧ (∀ first, ((rivals.creations first).offer "p").Representable)
      ∧ record? after.store "p" = some ((rivals.creations true).offer "p")
      ∧ (after.creations false).move "p" after.store
        = (after.store, { after.creations false with
            phase := .answered (.error (.store (.alreadyExists "p"))) }) := by
  intro after
  have hcalled : ∀ first, (rivals.creations first).phase = .called := fun _ => rfl
  have hs : FileStore.Sound rivals.store := FileStore.sound_empty "data"
  have hkept : rivals.kept "p" [true, true] = [true] := by decide +kernel
  have hreturned : (after.creations true).returned?
      = some ((rivals.creations true).offer "p") := by
    show ((rivals.run "p" [true, true]).creations true).returned? = _
    rw [rivals_coherent.returned?_run FileStore.laws, hkept, if_pos (by decide)]
  obtain ⟨hrecord, -, -, -, hlate⟩ :=
    create_on_shared_store FileStore.laws hcalled hs rfl rivals_holds [true, true]
  rw [hkept] at hrecord
  exact ⟨hcalled, hs, rfl, rivals_holds, hrecord.trans hreturned,
    hlate true false (by rw [hreturned]; rfl) rfl⟩

/-- Looking both before either puts, both succeed, and the first has returned a record that is
not there. -/
theorem create_overlapping_twice :
    let after := rivals.run "p" [true, false, true, false]
    record? rivals.store "p" = none
      ∧ (after.creations true).returned? = some ((rivals.creations true).offer "p")
      ∧ (after.creations false).returned? = some ((rivals.creations false).offer "p")
      ∧ record? after.store "p" = some ((rivals.creations false).offer "p")
      ∧ (rivals.creations true).offer "p" ≠ (rivals.creations false).offer "p" := by
  intro after
  have hkept : rivals.kept "p" [true, false, true, false] = [true, false] := by decide +kernel
  have hreturned : ∀ first, (after.creations first).returned?
      = some ((rivals.creations first).offer "p") := by
    intro first
    show ((rivals.run "p" [true, false, true, false]).creations first).returned? = _
    rw [rivals_coherent.returned?_run FileStore.laws, hkept, if_pos (by cases first <;> decide)]
  refine ⟨rfl, hreturned true, hreturned false, ?_, by decide⟩
  show record? (rivals.run "p" [true, false, true, false]).store "p" = _
  rw [rivals_coherent.record?_run FileStore.laws, if_pos rfl, hkept]
  rfl

end Shared

end EventScript.Host
