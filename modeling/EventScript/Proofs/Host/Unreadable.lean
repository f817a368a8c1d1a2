/-
Dispatching over a folder that something else has written into. A store of files lists an id
for every file that is named for one, whatever the file holds, and a dispatch reads the
records in the order of their ids: it passes over a program that does not compile, but a file
that cannot be read ends it. So one such file is enough that a dispatch answers with an error,
to any address and event, and the programs behind it in the order do not run at all.

What holds is said for a folder of any content. Where every listed record is readable, there
is a report for each program that compiles and listens. At the first one that is not, the
answer is its error; the programs before it have run, and their reports are gone.
-/
import EventScript.Proofs.Host.Stores
import Mathlib.Data.List.Forall2

namespace EventScript

open Store (Record isValidId record?)

-- ================================================================ folders

/-- The file of the id is there and holds a record, and the id is one. -/
def FileStore.Readable (s : FileStore) (id : String) : Prop :=
  isValidId id = true
    ∧ ∃ text r, s.folder.get? (fileName id) = some (.file text) ∧ Record.read text = .ok r

/-- A file is readable where there is a record under its id. -/
theorem FileStore.readable_iff {s : FileStore} {id : String} :
    s.Readable id ↔ ∃ r, record? s id = some r := by
  have hrecord : ∀ r, record? s id = some r ↔ s.get id = .ok r := fun r =>
    Store.get_eq_ok_iff.symm
  simp only [hrecord]
  unfold Readable FileStore.get
  cases hid : Store.checkId id with
  | error e =>
      have hinvalid : isValidId id ≠ true := by
        intro hvalid
        rw [Store.checkId_eq_ok_iff.mpr hvalid] at hid
        cases hid
      simp [hinvalid]
  | ok _ =>
      have hvalid : isValidId id = true := Store.checkId_eq_ok_iff.mp hid
      cases s.folder.get? (fileName id) with
      | none => simp
      | some tree => cases tree <;> simp [hvalid]

namespace Host

variable {σ : Type}

/-- The two hosts have the same programs and rules; the world may differ. -/
structure SamePrograms (h h' : Host σ) : Prop where
  store : h'.store = h.store
  rules : h.SameRules h'

/-- The report is that of the program, run on the event on a host with these programs. -/
def Tells (h : Host σ) (event : Json) (x : Record × Program) (report : Report) : Prop :=
  ∃ g, h.SamePrograms g ∧ report = (g.run x.1 x.2 event).1

/-- A report on one of the hosts is one on the other. -/
theorem SamePrograms.tells {h h' : Host σ} (hs : h.SamePrograms h') {event : Json}
    {x : Record × Program} {report : Report} (ht : h'.Tells event x report) :
    h.Tells event x report := by
  obtain ⟨g, hg, hreport⟩ := ht
  exact ⟨g, ⟨hg.store.trans hs.store, hs.rules.trans hg.rules⟩, hreport⟩

variable [Store σ]

/-- The record of the id and its program, if it listens to the address and compiles. -/
def audience? (h : Host σ) (address id : String) : Option (Record × Program) :=
  (record? h.store id).bind fun r =>
    if listens r address then (h.compile r.source).toOption.map fun p => (r, p) else none

variable {h h' : Host σ} {address id : String} {event : Json}

/-- Hosts with the same programs have the same audience. -/
theorem SamePrograms.audience? (hs : h.SamePrograms h') :
    h'.audience? address id = h.audience? address id := by
  unfold Host.audience?
  rw [hs.store]
  simp only [compile_congr hs.rules]

-- ============================================================ dispatching

/-- A program that can be read is run if it listens and compiles, and else passed over. -/
theorem dispatchTo_readable (address : String) (event : Json) {r : Record}
    (hr : record? h.store id = some r) :
    ∃ h', h.SamePrograms h'
      ∧ ((h.audience? address id = none
          ∧ ∀ rest, dispatchTo address event (id :: rest) h = dispatchTo address event rest h')
        ∨ ∃ x report, h.audience? address id = some x ∧ h.Tells event x report
          ∧ ∀ rest, dispatchTo address event (id :: rest) h
            = ((dispatchTo address event rest h').1.map (report :: ·),
                (dispatchTo address event rest h').2)) := by
  have hget := Store.get_eq_ok_iff.mpr hr
  unfold audience?
  rw [hr]
  cases hl : listens r address with
  | false =>
      refine ⟨h, ⟨rfl, .refl h⟩, Or.inl ⟨by simp [hl], fun rest => ?_⟩⟩
      simp [dispatchTo, hget, hl]
  | true =>
      cases hp : h.compile r.source with
      | error e =>
          refine ⟨h.log (Log.warn ("Skipping program '" ++ id ++ "': " ++ e.message)),
            ⟨rfl, h.log_sameRules _⟩, Or.inl ⟨by simp [hl, hp, Except.toOption], fun rest => ?_⟩⟩
          simp [dispatchTo, hget, hl, hp]
      | ok p =>
          refine ⟨(h.run r p event).2, ⟨rfl, h.run_sameRules r p event⟩,
            Or.inr ⟨(r, p), (h.run r p event).1, by simp [hl, hp, Except.toOption],
              ⟨h, ⟨rfl, .refl h⟩, rfl⟩, fun rest => ?_⟩⟩
          simp [dispatchTo, hget, hl, hp]

/-- Where every record can be read there is a report for each program that listens and
compiles, in the order of the ids. -/
theorem dispatchTo_of_readable {ids : List String}
    (hids : ∀ id ∈ ids, ∃ r, record? h.store id = some r) :
    ∃ reports, (dispatchTo address event ids h).1 = .ok reports
      ∧ List.Forall₂ (h.Tells event) (ids.filterMap (h.audience? address)) reports := by
  induction ids generalizing h with
  | nil => exact ⟨[], rfl, .nil⟩
  | cons id rest ih =>
      obtain ⟨⟨r, hr⟩, hrest⟩ := List.forall_mem_cons.mp hids
      obtain ⟨h', hs, hstep⟩ := dispatchTo_readable address event hr
      obtain ⟨reports, hanswer, htold⟩ := ih (h := h') (by rw [hs.store]; exact hrest)
      have hsame : h'.audience? address = h.audience? address :=
        funext fun _ => hs.audience?
      have htold : List.Forall₂ (h.Tells event) (rest.filterMap (h.audience? address)) reports := by
        rw [← hsame]
        exact htold.imp fun _ _ => hs.tells
      rcases hstep with ⟨hpassed, heq⟩ | ⟨x, report, hruns, htells, heq⟩
      · rw [heq rest, List.filterMap_cons_none hpassed]
        exact ⟨reports, hanswer, htold⟩
      · rw [heq rest, List.filterMap_cons_some hruns, hanswer]
        exact ⟨report :: reports, rfl, .cons htells htold⟩

/-- At the first record that cannot be read it is over: the host is as the programs before it
leave it, and the answer is the error. -/
theorem dispatchTo_of_unreadable {before later : List String} {e : StoreError}
    (hbefore : ∀ id ∈ before, ∃ r, record? h.store id = some r)
    (he : Store.get h.store id = .error e) :
    dispatchTo address event (before ++ id :: later) h
      = (.error (.store e), (dispatchTo address event before h).2) := by
  induction before generalizing h with
  | nil => simp [dispatchTo, he]
  | cons first before ih =>
      obtain ⟨⟨r, hr⟩, hrest⟩ := List.forall_mem_cons.mp hbefore
      obtain ⟨h', hs, hstep⟩ := dispatchTo_readable address event hr
      have hlater := ih (h := h') (by rw [hs.store]; exact hrest) (by rw [hs.store]; exact he)
      rcases hstep with ⟨-, heq⟩ | ⟨x, report, -, -, heq⟩
      · rw [List.cons_append, heq, heq, hlater]
      · rw [List.cons_append, heq, heq, hlater]
        rfl

/-- A dispatch answers with reports only if it can read every record. -/
theorem readable_of_dispatchTo {ids : List String} {reports : List Report}
    (hok : (dispatchTo address event ids h).1 = .ok reports) :
    ∀ id ∈ ids, ∃ r, record? h.store id = some r := by
  cases hfirst : ids.find? fun id => (record? h.store id).isNone with
  | none =>
      intro id hid
      have hthere := List.find?_eq_none.mp hfirst id hid
      exact Option.ne_none_iff_exists'.mp (by simpa using hthere)
  | some id =>
      obtain ⟨hnone, before, later, rfl, hbefore⟩ := List.find?_eq_some_iff_append.mp hfirst
      obtain ⟨e, he⟩ := Store.get_eq_error_of_record? (Option.isNone_iff_eq_none.mp hnone)
      have hread : ∀ i ∈ before, ∃ r, record? h.store i = some r := by
        intro i hi
        exact Option.isSome_iff_exists.mp (by simpa using hbefore i hi)
      rw [dispatchTo_of_unreadable hread he] at hok
      cases hok

/-- A dispatch over a folder of any content. It answers with reports exactly when every file
that is named for an id is one of a record; then there is one for each program that listens
and compiles. At the first file that is not, it answers with the error of that file, and the
programs behind it do not run. -/
theorem dispatch_of_folder (h : Host FileStore) (address : String) (event : Json) :
    ((∃ reports, (h.dispatch address event).1 = .ok reports)
        ↔ ∀ id ∈ FileStore.ids h.store.folder, h.store.Readable id)
      ∧ (∀ reports, (h.dispatch address event).1 = .ok reports →
        List.Forall₂ (h.Tells event)
          ((FileStore.ids h.store.folder).filterMap (h.audience? address)) reports)
      ∧ ∀ before id later e, FileStore.ids h.store.folder = before ++ id :: later →
        (∀ i ∈ before, h.store.Readable i) → Store.get h.store id = .error e →
          h.dispatch address event
            = (.error (.store e), (dispatchTo address event before h).2) := by
  have hdispatch : h.dispatch address event
      = dispatchTo address event (FileStore.ids h.store.folder) h := rfl
  have hreads : ∀ ids : List String,
      (∀ id ∈ ids, h.store.Readable id) ↔ ∀ id ∈ ids, ∃ r, record? h.store id = some r :=
    fun ids => forall₂_congr fun _ _ => FileStore.readable_iff
  rw [hdispatch, hreads]
  refine ⟨⟨?_, ?_⟩, ?_, ?_⟩
  · intro hok
    obtain ⟨reports, hanswer⟩ := hok
    exact readable_of_dispatchTo hanswer
  · intro hids
    obtain ⟨reports, hanswer, -⟩ := dispatchTo_of_readable hids
    exact ⟨reports, hanswer⟩
  · intro reports hanswer
    obtain ⟨reports', hanswer', htold⟩ := dispatchTo_of_readable (readable_of_dispatchTo hanswer)
    cases hanswer.symm.trans hanswer'
    exact htold
  · intro before id later e hids hbefore he
    rw [hids]
    exact dispatchTo_of_unreadable ((hreads before).mp hbefore) he

/-- A program that listens at an address. -/
def listener : Record :=
  let source := "version: \"1\"\nprogram:\n  - set:\n      variable: seen\n      value: true\n"
  ⟨"good", source, { id := "c", address := some "0xA" }, .epoch⟩

/-- The listener's file, and beside it a file of no record. -/
def strayFile : Host FileStore :=
  Host.new ⟨[("broken.json", .file "not a record"), ("good.json", .file listener.write)], "data"⟩
    {} {}

/-- The program can be read, compiles and listens, and no event reaches it. -/
theorem strayFile_silences_listener :
    (∃ p, strayFile.audience? "0xa" "good" = some (listener, p))
      ∧ ∀ event, strayFile.dispatch "0xa" event
        = (.error (.store (.undecodable "the text is no JSON document")), strayFile) := by
  have hwritten : listener.Representable :=
    ⟨by simp [listener, Cast.Representable], by decide +kernel, by decide⟩
  have hgood : record? strayFile.store "good" = some listener :=
    Store.get_eq_ok_iff.mp (FileStore.get_of_file (r := listener) (by decide) hwritten rfl)
  have hcompiles : ∃ p, (strayFile.compile listener.source).toOption = some p :=
    Option.isSome_iff_exists.mp (by decide +kernel)
  have hlistens : listens listener "0xa" = true := by decide +kernel
  have hnames : strayFile.store.folder.keys.filterMap FileStore.stem? = ["broken", "good"] := by
    decide +kernel
  have hids : FileStore.ids strayFile.store.folder = [] ++ "broken" :: ["good"] := by
    unfold FileStore.ids
    rw [hnames]
    exact List.mergeSort_of_pairwise (by decide +kernel)
  have hbroken : Store.get strayFile.store "broken"
      = .error (.undecodable "the text is no JSON document") := by
    decide +kernel
  constructor
  · obtain ⟨p, hp⟩ := hcompiles
    refine ⟨p, ?_⟩
    unfold audience?
    rw [hgood, Option.bind_some, if_pos hlistens, hp]
    rfl
  · intro event
    show dispatchTo "0xa" event (FileStore.ids strayFile.store.folder) strayFile = _
    rw [hids]
    exact dispatchTo_of_unreadable (List.forall_mem_nil _) hbroken

end Host
end EventScript
