/-
The store of a host stays sound. A host puts a record under a usable id and with a source it
compiles, or it refuses and is the host it was; and it only reads the store when it runs
programs. So whatever it has been asked since the store was empty, every record has the id
it is kept under and a source that the host still compiles, since its registry is the one it
was made with.

What the operations have to do with the store is the laws of a map, so the store may be of any
kind that keeps them: the records may be in memory, or in the files of a folder. The clock
is outside; what it shows is a part of what is asked.
-/
import EventScript.Proofs.Host.Operation
import EventScript.Proofs.Store.Laws

namespace EventScript.Host

open Store (Record isValidId record?)

variable {σ : Type}

-- ================================================================ the past

/-- The host when the clock shows this time. -/
def atTime (h : Host σ) (now : Timestamp) : Host σ :=
  { h with world := { h.world with now } }

theorem atTime_sameRules (h : Host σ) (now : Timestamp) : h.SameRules (h.atTime now) := ⟨rfl, rfl⟩

/-- The record that an operation asks a host to keep. -/
def Operation.offers? (now : Timestamp) : Operation → Option Record
  | create id source cast => some ⟨id, source, cast, now⟩
  | update id source cast => some ⟨id, source, cast, now⟩
  | _ => none

/-- Whether the source is one of a program that the host accepts. -/
def Compiles (h : Host σ) (source : String) : Prop := ∃ p, h.compile source = .ok p

/-- Under the same rules a source compiles to the same. -/
theorem compile_congr {h h' : Host σ} (hr : h.SameRules h') (source : String) :
    h'.compile source = h.compile source := by
  unfold compile
  rw [hr.registry]

/-- Under the same rules the same sources compile. -/
theorem SameRules.compiles_iff {h h' : Host σ} (hr : h.SameRules h') {source : String} :
    h'.Compiles source ↔ h.Compiles source := by
  unfold Compiles
  rw [compile_congr hr]

theorem run_store (h : Host σ) (r : Record) (p : Program) (event : Json) :
    (h.run r p event).2.store = h.store := rfl

variable [Store σ]

/-- The host after operations, one after another, each at its time. -/
def serveAll (h : Host σ) (past : List (Timestamp × Operation)) : Host σ :=
  past.foldl (fun h (now, op) => (h.atTime now).after op) h

-- ============================================================ the answers

/-- The answer is the record, and under the id the store has `new` then, and under every
other what it had. -/
def Changes (h : Host σ) (id : String) (new : Option Record) (r : Record)
    (answer : Except HostError Record × Host σ) : Prop :=
  answer.1 = .ok r
    ∧ ∀ other, record? answer.2.store other = if other = id then new else record? h.store other

/-- The answer is an error, and the host is the one it was. -/
def Refuses (h : Host σ) (answer : Except HostError Record × Host σ) : Prop :=
  ∃ e, answer = (.error e, h)

/-- Where it is allowed the record is put under its id, and else it is refused. -/
def Puts (h : Host σ) (allowed : Prop) (r : Record)
    (answer : Except HostError Record × Host σ) : Prop :=
  (allowed → h.Changes r.id (some r) r answer) ∧ (¬ allowed → h.Refuses answer)

/-- A host with a sound store, whose records are its own: each under its id, with a source
that compiles. -/
structure Kept (Sound : σ → Prop) (h : Host σ) : Prop where
  sound : Sound h.store
  own : ∀ {id : String} {r : Record}, record? h.store id = some r →
    r.id = id ∧ isValidId id = true ∧ h.Compiles r.source

/-- Everything that holds of a host and its store between two operations. -/
structure Orderly (Holds : Record → Prop) (h : Host σ) : Prop where
  stored : ∀ id r, record? h.store id = some r →
    r.id = id ∧ isValidId id = true ∧ h.Compiles r.source
  listed : ∃ ids, Store.list h.store = .ok ids ∧ ids.Pairwise (· < ·)
    ∧ ∀ id, id ∈ ids ↔ (record? h.store id).isSome = true
  /-- A program is created under a usable id that is free, if its source compiles. -/
  create : ∀ id source cast, Holds ⟨id, source, cast, h.world.now⟩ →
    h.Puts (isValidId id = true ∧ record? h.store id = none ∧ h.Compiles source)
      ⟨id, source, cast, h.world.now⟩ (h.create id source cast)
  /-- A program that is there is updated, if its source compiles. -/
  update : ∀ id source cast, Holds ⟨id, source, cast, h.world.now⟩ →
    h.Puts ((record? h.store id).isSome = true ∧ h.Compiles source)
      ⟨id, source, cast, h.world.now⟩ (h.update id source cast)
  /-- A program that is there is deleted. -/
  delete : ∀ id,
    (∀ r, record? h.store id = some r → h.Changes id none r (h.delete id))
    ∧ (record? h.store id = none → h.Refuses (h.delete id))
  handleEvent_store : ∀ id event, (h.handleEvent id event).2.store = h.store
  dispatch_store : ∀ address event, (h.dispatch address event).2.store = h.store
  /-- Every program there is handles every event. -/
  handles : ∀ id event, (record? h.store id).isSome = true →
    ∃ report, (h.handleEvent id event).1 = .ok report

-- ===================================================== reading operations

/-- A program that is there and compiles is run. -/
theorem handleEvent_of_record {h : Host σ} {id : String} {r : Record} {p : Program}
    (hr : record? h.store id = some r) (hp : h.compile r.source = .ok p) (event : Json) :
    h.handleEvent id event = (.ok (h.run r p event).1, (h.run r p event).2) := by
  unfold handleEvent
  rw [Store.get_eq_ok_iff.mpr hr]
  dsimp only
  rw [hp]

theorem handleEvent_store (h : Host σ) (id : String) (event : Json) :
    (h.handleEvent id event).2.store = h.store := by
  unfold handleEvent
  cases Store.get h.store id with
  | error e => rfl
  | ok r =>
      dsimp only
      cases h.compile r.source with
      | error e => rfl
      | ok p => exact h.run_store r p event

theorem dispatchTo_store (address : String) (event : Json) (ids : List String) (h : Host σ) :
    (dispatchTo address event ids h).2.store = h.store := by
  induction ids generalizing h with
  | nil => rfl
  | cons id rest ih =>
      unfold dispatchTo
      cases Store.get h.store id with
      | error e => rfl
      | ok r =>
          dsimp only
          split
          case isTrue =>
            cases h.compile r.source with
            | error e => exact ih _
            | ok p => exact ih _
          case isFalse => exact ih h

/-- Dispatching an event leaves the store as it is. -/
theorem dispatch_store (h : Host σ) (address : String) (event : Json) :
    (h.dispatch address event).2.store = h.store := by
  unfold dispatch
  cases Store.list h.store with
  | error e => rfl
  | ok ids => exact dispatchTo_store address event ids h

-- ===================================================== writing operations

/-- A record that the store takes is kept and answered. -/
theorem keep_of_put {h : Host σ} {r : Record} {s : σ} (hput : Store.put h.store r = .ok s)
    (done : String) : (h.keep done r).1 = .ok r ∧ (h.keep done r).2.store = s := by
  unfold keep
  rw [hput]
  dsimp only
  split <;> exact ⟨rfl, rfl⟩

/-- A host amends a program that is there with a source it compiles. -/
theorem amend_eq_ok {h : Host σ} {id source : String} {cast : Cast} {r : Record} :
    h.amend id source cast = .ok r ↔
      ((record? h.store id).isSome = true ∧ h.Compiles source)
        ∧ r = ⟨id, source, cast, h.world.now⟩ := by
  unfold amend Compiles record?
  cases Store.get h.store id with
  | error e => simp [Except.toOption]
  | ok old => cases h.compile source <;> simp [Except.toOption, eq_comm]

namespace Kept

variable {Sound : σ → Prop} {Holds : Record → Prop} {h : Host σ}

/-- What a host leaves in its store stays its own as long as its rules are the same. -/
theorem of_sameRules {h' : Host σ} (hk : h.Kept Sound) (hr : h.SameRules h')
    (hs : h'.store = h.store) : h'.Kept Sound where
  sound := by
    rw [hs]
    exact hk.sound
  own := by
    intro id r hrecord
    rw [hs] at hrecord
    obtain ⟨hown, hid, hc⟩ := hk.own hrecord
    exact ⟨hown, hid, hr.compiles_iff.mpr hc⟩

/-- Setting the clock leaves the host kept. -/
theorem atTime (hk : h.Kept Sound) (now : Timestamp) : (h.atTime now).Kept Sound :=
  hk.of_sameRules (h.atTime_sameRules now) rfl

variable (laws : Store.Laws σ Sound Holds)

include laws

/-- A record of a usable id and a source that compiles is kept. -/
theorem keep (hk : h.Kept Sound) {r : Record} (hid : isValidId r.id = true) (hr : Holds r)
    (hc : h.Compiles r.source) (done : String) :
    h.Changes r.id (some r) r (h.keep done r) ∧ (h.keep done r).2.Kept Sound := by
  obtain ⟨s, hput, hsound, hrecords⟩ := laws.put hk.sound hid hr
  obtain ⟨hanswer, hstore⟩ := keep_of_put hput done
  have hrules := h.keep_sameRules done r
  refine ⟨⟨hanswer, ?_⟩, ⟨?_, ?_⟩⟩
  · rw [hstore]
    exact hrecords
  · rw [hstore]
    exact hsound
  · intro id r' hrecord
    rw [hstore, hrecords] at hrecord
    rw [hrules.compiles_iff]
    by_cases heq : id = r.id
    · rw [if_pos heq] at hrecord
      cases hrecord
      rw [heq]
      exact ⟨rfl, hid, hc⟩
    · rw [if_neg heq] at hrecord
      exact hk.own hrecord

/-- A record is kept or refused by what was found out about it before. -/
theorem puts (hk : h.Kept Sound) {found : Except HostError Record} {done : String}
    {answer : Except HostError Record × Host σ}
    (hanswer : answer = match found with
      | .error e => (.error e, h)
      | .ok r => h.keep done r)
    {allowed : Prop} {r : Record} (hfound : ∀ {r'}, found = .ok r' ↔ allowed ∧ r' = r)
    (hallowed : allowed → isValidId r.id = true ∧ h.Compiles r.source) (hr : Holds r) :
    h.Puts allowed r answer ∧ answer.2.Kept Sound := by
  cases found with
  | error e =>
      have hnot : ¬ allowed := by
        intro h
        cases hfound.mpr ⟨h, rfl⟩
      rw [hanswer]
      exact ⟨⟨fun h => absurd h hnot, fun _ => ⟨e, rfl⟩⟩, hk⟩
  | ok r' =>
      obtain ⟨h, rfl⟩ := hfound.mp rfl
      obtain ⟨hid, hc⟩ := hallowed h
      obtain ⟨hchanges, hkept⟩ := hk.keep laws hid hr hc done
      rw [hanswer]
      exact ⟨⟨fun _ => hchanges, fun hnot => absurd h hnot⟩, hkept⟩

/-- A creation puts the record if the id is valid and free and the source compiles, and the
host is kept either way. -/
theorem create (hk : h.Kept Sound) {id source : String} {cast : Cast}
    (hr : Holds ⟨id, source, cast, h.world.now⟩) :
    h.Puts (isValidId id = true ∧ record? h.store id = none ∧ h.Compiles source)
        ⟨id, source, cast, h.world.now⟩ (h.create id source cast)
      ∧ (h.create id source cast).2.Kept Sound := by
  have haccept : ∀ {r : Record}, h.accept id source cast = .ok r ↔
      (isValidId id = true ∧ record? h.store id = none ∧ h.Compiles source)
        ∧ r = ⟨id, source, cast, h.world.now⟩ := by
    intro r
    rw [accept_eq_ok, Store.checkId_eq_ok_iff, and_assoc, and_assoc]
    refine and_congr_right fun hid => ?_
    rw [laws.contains hk.sound hid, Except.ok.injEq, Option.isSome_eq_false_iff,
      Option.isNone_iff_eq_none]
    exact Iff.rfl
  exact hk.puts laws rfl haccept (fun hyp => ⟨hyp.1, hyp.2.2⟩) hr

/-- An update puts the record if there is one under the id and the source compiles, and the
host is kept either way. -/
theorem update (hk : h.Kept Sound) {id source : String} {cast : Cast}
    (hr : Holds ⟨id, source, cast, h.world.now⟩) :
    h.Puts ((record? h.store id).isSome = true ∧ h.Compiles source)
        ⟨id, source, cast, h.world.now⟩ (h.update id source cast)
      ∧ (h.update id source cast).2.Kept Sound := by
  have hid : (record? h.store id).isSome = true → isValidId id = true := by
    intro hthere
    obtain ⟨old, hold⟩ := Option.isSome_iff_exists.mp hthere
    exact (hk.own hold).2.1
  exact hk.puts laws rfl amend_eq_ok (fun hyp => ⟨hid hyp.1, hyp.2⟩) hr

/-- A deletion takes the record away if there is one; the host is kept either way. -/
theorem delete (hk : h.Kept Sound) (id : String) :
    ((∀ r, record? h.store id = some r → h.Changes id none r (h.delete id))
      ∧ (record? h.store id = none → h.Refuses (h.delete id)))
    ∧ (h.delete id).2.Kept Sound := by
  unfold Host.delete
  cases hrecord : record? h.store id with
  | none =>
      obtain ⟨e, he⟩ := laws.delete_absent hk.sound hrecord
      rw [he]
      refine ⟨⟨?_, fun _ => ⟨.store e, rfl⟩⟩, hk⟩
      intro r hr
      cases hr
  | some r =>
      obtain ⟨s, hdelete, hsound, hrecords⟩ := laws.delete hk.sound hrecord
      rw [hdelete]
      refine ⟨⟨?_, fun hnone => by cases hnone⟩, ⟨hsound, ?_⟩⟩
      · intro r' hr'
        cases hr'
        exact ⟨rfl, hrecords⟩
      · intro other r' hr'
        have hstored : record? s other = some r' := hr'
        rw [hrecords] at hstored
        split at hstored
        case isTrue => cases hstored
        case isFalse => exact hk.own hstored

/-- An operation leaves a host whose records are its own. -/
theorem after (hk : h.Kept Sound) {op : Operation}
    (hr : ∀ r, op.offers? h.world.now = some r → Holds r) : (h.after op).Kept Sound := by
  cases op with
  | create id source cast => exact (hk.create laws (hr _ rfl)).2
  | update id source cast => exact (hk.update laws (hr _ rfl)).2
  | delete id => exact (hk.delete laws id).2
  | handleEvent id event =>
      exact hk.of_sameRules (h.handleEvent_sameRules id event) (h.handleEvent_store id event)
  | dispatch address event =>
      exact hk.of_sameRules (h.dispatch_sameRules address event) (h.dispatch_store address event)

/-- Any past leaves the host kept. -/
theorem serveAll (hk : h.Kept Sound) {past : List (Timestamp × Operation)}
    (hr : ∀ x ∈ past, ∀ r, x.2.offers? x.1 = some r → Holds r) : (h.serveAll past).Kept Sound := by
  induction past generalizing h with
  | nil => exact hk
  | cons x past ih =>
      obtain ⟨now, op⟩ := x
      have hafter : ((h.atTime now).after op).Kept Sound :=
        (hk.atTime now).after laws (hr (now, op) (List.mem_cons_self ..))
      exact ih hafter fun y hy => hr y (List.mem_cons_of_mem _ hy)

/-- A kept host serves every operation in order. -/
theorem orderly (hk : h.Kept Sound) : h.Orderly Holds where
  stored := fun _ _ => hk.own
  listed := laws.list hk.sound
  create := fun _ _ _ hr => (hk.create laws hr).1
  update := fun _ _ _ hr => (hk.update laws hr).1
  delete := fun id => (hk.delete laws id).1
  handleEvent_store := h.handleEvent_store
  dispatch_store := h.dispatch_store
  handles := by
    intro id event hthere
    obtain ⟨r, hr⟩ := Option.isSome_iff_exists.mp hthere
    obtain ⟨p, hp⟩ := (hk.own hr).2.2
    exact ⟨_, congrArg Prod.fst (handleEvent_of_record hr hp event)⟩

end Kept

end EventScript.Host
