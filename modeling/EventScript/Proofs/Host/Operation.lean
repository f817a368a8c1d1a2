/-
What is asked of a host, as data, so that a host's past is a list. An operation answers and
leaves a host behind; here it is the host that matters. Whatever it is asked, a host keeps
the instructions it knows and the settings of its machines: they are those it was made
with. What the operations do to the store and to the world is not said here.
-/
import EventScript.Host
import EventScript.Proofs.Program.Realization

namespace EventScript.Host

/-- What may be asked of a host. -/
inductive Operation where
  | create (id source : String) (cast : Cast)
  | update (id source : String) (cast : Cast)
  | delete (id : String)
  | handleEvent (id : String) (event : Json)
  | dispatch (address : String) (event : Json)

variable {σ : Type}

-- ============================================================= the rules

/-- The two hosts know the same instructions and run machines of the same settings. -/
structure SameRules (h h' : Host σ) : Prop where
  registry : h'.registry = h.registry
  settings : h'.settings = h.settings

theorem SameRules.refl (h : Host σ) : h.SameRules h := ⟨rfl, rfl⟩

theorem SameRules.trans {a b c : Host σ} (hab : a.SameRules b) (hbc : b.SameRules c) :
    a.SameRules c :=
  ⟨hbc.registry.trans hab.registry, hbc.settings.trans hab.settings⟩

theorem log_sameRules (h : Host σ) (record : Log.Record) : h.SameRules (h.log record) :=
  ⟨rfl, rfl⟩

theorem run_sameRules (h : Host σ) (r : Store.Record) (p : Program) (event : Json) :
    h.SameRules (h.run r p event).2 := ⟨rfl, rfl⟩

/-- A host compiles what reads as a document that its registry compiles. -/
theorem compile_eq_ok {h : Host σ} {source : String} {p : Program} :
    h.compile source = .ok p ↔
      ∃ d, Document.parse source = .ok d ∧ Program.compile h.registry d = .ok p := by
  unfold compile
  rw [Except.map_eq_ok]
  constructor
  · intro h
    obtain ⟨⟨d, p'⟩, hsource, rfl⟩ := h
    exact ⟨d, Program.ofSource_eq_ok.mp hsource⟩
  · intro h
    obtain ⟨d, hd⟩ := h
    exact ⟨(d, p), Program.ofSource_eq_ok.mpr hd, rfl⟩

-- ======================================================== the operations

variable [Store σ]

/-- The host after an operation, whatever the answer. -/
def after (h : Host σ) : Operation → Host σ
  | .create id source cast => (h.create id source cast).2
  | .update id source cast => (h.update id source cast).2
  | .delete id => (h.delete id).2
  | .handleEvent id event => (h.handleEvent id event).2
  | .dispatch address event => (h.dispatch address event).2

/-- The host after operations, one after another. -/
def afterAll (h : Host σ) (ops : List Operation) : Host σ := ops.foldl after h

/-- Keeping a record changes no rules. -/
theorem keep_sameRules (h : Host σ) (done : String) (r : Store.Record) :
    h.SameRules (h.keep done r).2 := by
  unfold keep
  cases Store.put h.store r with
  | error e => exact .refl h
  | ok store =>
      dsimp only
      split
      · exact ⟨rfl, rfl⟩
      · exact ⟨rfl, rfl⟩

/-- Creating a program changes no rules, whether it succeeds or not. -/
theorem create_sameRules (h : Host σ) (id source : String) (cast : Cast) :
    h.SameRules (h.create id source cast).2 := by
  unfold create
  cases h.accept id source cast with
  | error e => exact .refl h
  | ok r => exact h.keep_sameRules "Created" r

theorem update_sameRules (h : Host σ) (id source : String) (cast : Cast) :
    h.SameRules (h.update id source cast).2 := by
  unfold update
  cases h.amend id source cast with
  | error e => exact .refl h
  | ok r => exact h.keep_sameRules "Updated" r

theorem delete_sameRules (h : Host σ) (id : String) : h.SameRules (h.delete id).2 := by
  unfold delete
  cases Store.delete h.store id with
  | error e => exact .refl h
  | ok answer => exact ⟨rfl, rfl⟩

/-- Handling an event, whatever comes of it, leaves the registry and the settings. -/
theorem handleEvent_sameRules (h : Host σ) (id : String) (event : Json) :
    h.SameRules (h.handleEvent id event).2 := by
  unfold handleEvent
  cases Store.get h.store id with
  | error e => exact .refl h
  | ok r =>
      dsimp only
      cases h.compile r.source with
      | error e => exact .refl h
      | ok p => exact h.run_sameRules r p event

/-- Handling an event for each of a list of programs leaves them too. -/
theorem dispatchTo_sameRules (address : String) (event : Json) (ids : List String)
    (h : Host σ) : h.SameRules (dispatchTo address event ids h).2 := by
  induction ids generalizing h with
  | nil => exact .refl h
  | cons id rest ih =>
      unfold dispatchTo
      cases Store.get h.store id with
      | error e => exact .refl h
      | ok r =>
          dsimp only
          split
          case isTrue =>
            cases h.compile r.source with
            | error e => exact (h.log_sameRules _).trans (ih _)
            | ok p => exact (h.run_sameRules r p event).trans (ih _)
          case isFalse => exact ih h

theorem dispatch_sameRules (h : Host σ) (address : String) (event : Json) :
    h.SameRules (h.dispatch address event).2 := by
  unfold dispatch
  cases Store.list h.store with
  | error e => exact .refl h
  | ok ids => exact dispatchTo_sameRules address event ids h

/-- One operation leaves the rules as they are. -/
theorem after_sameRules (h : Host σ) (op : Operation) : h.SameRules (h.after op) := by
  cases op with
  | create id source cast => exact h.create_sameRules id source cast
  | update id source cast => exact h.update_sameRules id source cast
  | delete id => exact h.delete_sameRules id
  | handleEvent id event => exact h.handleEvent_sameRules id event
  | dispatch address event => exact h.dispatch_sameRules address event

/-- However long a host is used, its rules are those it was made with. -/
theorem afterAll_sameRules (h : Host σ) (ops : List Operation) :
    h.SameRules (h.afterAll ops) := by
  induction ops generalizing h with
  | nil => exact .refl h
  | cons op ops ih => exact (h.after_sameRules op).trans (ih (h.after op))

/-- A host accepts a program under a valid id that is free, with a source it compiles. -/
theorem accept_eq_ok {h : Host σ} {id source : String} {cast : Cast} {r : Store.Record} :
    h.accept id source cast = .ok r ↔
      Store.checkId id = .ok () ∧ Store.contains h.store id = .ok false
        ∧ (∃ p, h.compile source = .ok p) ∧ r = ⟨id, source, cast, h.world.now⟩ := by
  unfold accept
  cases Store.checkId id with
  | error e => simp
  | ok u =>
      cases Store.contains h.store id with
      | error e => simp
      | ok taken =>
          cases taken with
          | true => simp
          | false =>
              cases h.compile source with
              | error e => simp
              | ok p => simp [eq_comm]

/-- The source of a program that was created is one that the host compiles. -/
theorem compile_of_create {h h' : Host σ} {id source : String} {cast : Cast}
    {r : Store.Record} (hc : h.create id source cast = (.ok r, h')) :
    ∃ p, h.compile source = .ok p := by
  unfold create at hc
  cases ha : h.accept id source cast with
  | error e =>
      rw [ha] at hc
      cases hc
  | ok record =>
      obtain ⟨-, -, hp, -⟩ := accept_eq_ok.mp ha
      exact hp

end EventScript.Host
