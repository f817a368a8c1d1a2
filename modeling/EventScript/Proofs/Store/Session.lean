/-
A store in files, used in one session after another. A session opens the store under its path,
does what is asked, and leaves the files as they are then; nothing else is handed on to the
next. The folder of records is made by the first session and found by the later ones, because
what a session writes is inside that folder, and the way to the folder is not; so the store that
a session opens is the store that the one before has left.

Together with what a store in files remembers in one session this says that it is a map of
records across sessions: whatever the source of a record, whatever texts its cast has, and also
when a shorter record is put in place of a longer one.
-/
import EventScript.Proofs.Except
import EventScript.Proofs.FileSystem
import EventScript.Proofs.Store.File
import EventScript.Proofs.Store.History

namespace EventScript.FileStore

open Store (Record isValidId record?)

-- =============================================================== one session

/-- The files after a session on the store under a path. -/
def session (root : String) (files : FileSystem) (ops : List Store.Operation) :
    Except StoreError FileSystem :=
  (prepare files root).map fun (files, place) =>
    (Store.afterAll (load files root place) ops).save files place

/-- The files after sessions, one after another. -/
def sessions (root : String) (files : FileSystem) (past : List (List Store.Operation)) :
    Except StoreError FileSystem :=
  past.foldlM (session root) files

/-- The store in files refuses as stores do. -/
theorem refusals : Store.Refusals FileStore where
  put := by
    intro s r hid
    show s.put r = _
    unfold put Store.checkId
    rw [hid]
    rfl
  delete := by
    intro s id e he
    have hget : s.get id = .error e := he
    show s.delete id = _
    unfold delete
    rw [hget]
    rfl

/-- A put stays in the folder of the store. -/
theorem root_of_put {s s' : FileStore} {r : Record} (h : s.put r = .ok s') : s'.root = s.root := by
  unfold put at h
  split at h
  · cases h
  · obtain ⟨folder, -, rfl⟩ := Except.map_eq_ok.mp h
    rfl

theorem root_of_delete {s s' : FileStore} {id : String} {r : Record}
    (h : s.delete id = .ok (r, s')) : s'.root = s.root := by
  obtain ⟨record, -, heq⟩ := Except.map_eq_ok.mp h
  cases heq
  rfl

/-- Nothing that is asked of a store moves it. -/
theorem serve_root (s : FileStore) (op : Store.Operation) : (Store.serve s op).2.root = s.root := by
  cases op with
  | put r =>
      unfold Store.serve
      dsimp only
      split
      · next hput => exact root_of_put hput
      · rfl
  | delete id =>
      unfold Store.serve
      dsimp only
      split
      · next hdelete => exact root_of_delete hdelete
      · rfl
  | get id => rfl
  | list => rfl
  | contains id => rfl

theorem afterAll_root (s : FileStore) (ops : List Store.Operation) :
    (Store.afterAll s ops).root = s.root := by
  induction ops generalizing s with
  | nil => rfl
  | cons op ops ih => exact (ih (Store.serve s op).2).trans (s.serve_root op)

-- ============================================================== found again

/-- The way to the folder of records leads through folders, none of them inside this one. -/
structure Ready (files : FileSystem) (root : String) (place : Location) : Prop where
  way : ∀ v ∈ FileSystem.trail (files.origin (folderPath root)) (Text.split "/" (folderPath root)),
    files.isFolderAt v = true ∧ (place <+: v → v = place)
  leads : place = (FileSystem.trail (files.origin (folderPath root))
    (Text.split "/" (folderPath root))).getLastD (files.origin (folderPath root))
  there : files.isFolderAt place = true

variable {files ready : FileSystem} {root : String} {place : Location}

/-- Opening a store that has no records yet makes it ready. -/
theorem ready_of_prepare (hhere : files.isFolderAt files.here = true)
    (h : prepare files root = .ok (ready, place))
    (hempty : ready.root.at? place = some (.folder [])) : Ready ready root place := by
  have hmake : files.makeFrom (files.origin (folderPath root)) (Text.split "/" (folderPath root))
      = .ok (ready, place) := (Except.mapError_eq_ok).mp h
  have horigin : files.isFolderAt (files.origin (folderPath root)) = true := by
    unfold FileSystem.origin
    split
    · obtain ⟨entries, hat⟩ := FileSystem.isFolderAt_iff.mp hhere
      cases hloc : files.here with
      | nil =>
          rw [hloc] at hat
          exact FileSystem.isFolderAt_iff.mpr ⟨entries, hat⟩
      | cons name rest =>
          rw [hloc] at hat
          have hthere : (files.root.at? ([] ++ name :: rest)).isSome = true := by
            rw [List.nil_append, hat]
            rfl
          exact FileSystem.isFolderAt_iff.mpr
            (FileTree.at?_of_prefix hthere (List.cons_ne_nil name rest))
    · exact hhere
  obtain ⟨hsame, hplace, -, htrail⟩ := FileSystem.folders_of_makeFrom horigin hmake
  have hpath : ready.origin (folderPath root) = files.origin (folderPath root) := by
    unfold FileSystem.origin
    rw [hsame]
  refine ⟨?_, by rw [hpath]; exact hplace, FileSystem.isFolderAt_iff.mpr ⟨[], hempty⟩⟩
  rw [hpath]
  intro v hv
  refine ⟨htrail v hv, ?_⟩
  rintro ⟨rest, rfl⟩
  -- an empty folder has no folder inside
  obtain ⟨entries, hat⟩ := FileSystem.isFolderAt_iff.mp (htrail _ hv)
  rw [FileTree.at?_append, hempty] at hat
  cases rest with
  | nil => exact List.append_nil place
  | cons name rest => cases hat

/-- A store that is ready is opened without making a folder. -/
theorem Ready.prepare_eq (h : Ready files root place) :
    prepare files root = .ok (files, place) := by
  unfold prepare FileSystem.makeFolder
  rw [FileSystem.makeFrom_of_folders fun v hv => (h.way v hv).1, ← h.leads]
  rfl

/-- A store that is saved in place of a folder is found as it was. -/
theorem load_save (h : files.isFolderAt place = true) (s : FileStore) (hs : s.root = root) :
    load (s.save files place) root place = s := by
  have hat : (s.save files place).root.at? place = some (.folder s.folder) :=
    FileSystem.at?_putAt_of_folder h (.folder s.folder)
  obtain ⟨folder, path⟩ := s
  cases hs
  unfold load FileSystem.folderAt
  rw [hat]

/-- A store that is saved is ready, and found as it was. -/
theorem Ready.save (h : Ready files root place) (s : FileStore) (hs : s.root = root) :
    Ready (s.save files place) root place ∧ load (s.save files place) root place = s := by
  have hat : (s.save files place).root.at? place = some (.folder s.folder) :=
    FileSystem.at?_putAt_of_folder h.there (.folder s.folder)
  refine ⟨⟨?_, h.leads, FileSystem.isFolderAt_iff.mpr ⟨_, hat⟩⟩, load_save h.there s hs⟩
  intro v hv
  obtain ⟨hfolder, hout⟩ := h.way v hv
  refine ⟨?_, hout⟩
  by_cases hprefix : place <+: v
  · rw [hout hprefix]
    exact FileSystem.isFolderAt_iff.mpr ⟨_, hat⟩
  · obtain ⟨entries, hv⟩ := FileSystem.isFolderAt_iff.mp hfolder
    exact FileSystem.isFolderAt_iff.mpr (FileTree.at?_put_of_folder hv hprefix)

-- ============================================================ all sessions

/-- The next session is on a store that remembers all that was asked so far. -/
def Continues (root : String) (files : FileSystem) (past : List Store.Operation) : Prop :=
  ∃ files' place, prepare files root = .ok (files', place) ∧ Ready files' root place
    ∧ Store.Remembers Sound (load files' root place) past

/-- A session goes through, and the next one finds what it asked remembered. -/
theorem Continues.session {past ops : List Store.Operation} (h : Continues root files past)
    (hops : Store.Puts Record.Representable ops) :
    ∃ left, session root files ops = .ok left ∧ Continues root left (past ++ ops) := by
  obtain ⟨files', place, hprepare, hready, hpast⟩ := h
  have hafter := hpast.afterAll laws refusals hops
  obtain ⟨hready', hload⟩ := hready.save _ (afterAll_root (load files' root place) ops)
  refine ⟨(Store.afterAll (load files' root place) ops).save files' place, ?_,
    _, place, hready'.prepare_eq, hready', ?_⟩
  · unfold FileStore.session
    rw [hprepare]
    rfl
  · rw [hload]
    exact hafter

/-- Sessions one after another go on from where the first one began. -/
theorem Continues.sessions {past : List Store.Operation} {later : List (List Store.Operation)}
    (h : Continues root files past) (hlater : ∀ ops ∈ later, Store.Puts Record.Representable ops) :
    ∃ left, sessions root files later = .ok left ∧ Continues root left (past ++ later.flatten) := by
  induction later generalizing files past with
  | nil => exact ⟨files, rfl, by rwa [List.flatten_nil, List.append_nil]⟩
  | cons ops later ih =>
      obtain ⟨next, hnext, hcontinues⟩ := h.session (hlater ops (List.mem_cons_self ..))
      obtain ⟨left, hleft, hend⟩ := ih hcontinues fun ops hops =>
        hlater ops (List.mem_cons_of_mem _ hops)
      refine ⟨left, ?_, by rwa [List.flatten_cons, ← List.append_assoc]⟩
      unfold FileStore.sessions
      rw [List.foldlM_cons, hnext]
      exact hleft

theorem remembers_empty (root : String) : Store.Remembers Sound ⟨[], root⟩ [] := by
  refine .of_empty (sound_empty root) fun id => ?_
  refine Option.eq_none_iff_forall_ne_some.mpr fun r hr => ?_
  obtain ⟨-, -, -, hfile⟩ := (sound_empty root).record?_iff.mp hr
  cases hfile

/-- From an empty folder on, and through all sessions, a store in files is the map that its past
has left: at any time, also in the middle of a session. -/
theorem faithful_across_sessions (hhere : files.isFolderAt files.here = true)
    (hopen : prepare files root = .ok (ready, place))
    (hempty : ready.root.at? place = some (.folder []))
    {past : List (List Store.Operation)} {current : List Store.Operation}
    (hpast : ∀ ops ∈ past, Store.Puts Record.Representable ops)
    (hcurrent : Store.Puts Record.Representable current) :
    ∃ left files' place', sessions root files past = .ok left
      ∧ prepare left root = .ok (files', place')
      ∧ Store.Faithful Record.Representable
          (Store.afterAll (load files' root place') current) (past.flatten ++ current) := by
  have hready := ready_of_prepare hhere hopen hempty
  have hstart : Continues root files [] := by
    refine ⟨ready, place, hopen, hready, ?_⟩
    have hnew : load ready root place = ⟨[], root⟩ := by
      unfold load FileSystem.folderAt
      rw [hempty]
    rw [hnew]
    exact remembers_empty root
  obtain ⟨left, hleft, files', place', hprepare, -, hremembers⟩ := hstart.sessions hpast
  rw [List.nil_append] at hremembers
  exact ⟨left, files', place', hleft, hprepare,
    (hremembers.afterAll laws refusals hcurrent).faithful laws refusals⟩

/-- A record for a contract on a chain. -/
def sampleRecord (id source : String) : Record :=
  { id, source, cast := { id := "\"\n", address := some "0xA", chainId := some 1 },
    updatedAt := .epoch }

theorem sampleRecord_representable (id source : String) :
    (sampleRecord id source).Representable := by
  refine ⟨?_, ?_⟩
  · simp [sampleRecord, Cast.Representable]
  · show Timestamp.epoch.Representable
    exact ⟨by decide +kernel, by decide⟩

/-- A longer record is put in one session and a shorter one in its place in the next, where
another record is deleted. -/
def shortened : List (List Store.Operation) :=
  [[.put (sampleRecord "p" "a much longer source text"), .put (sampleRecord "q" "other")],
    [.put (sampleRecord "p" "short"), .delete "q"]]

theorem faithful_across_sessions_shortened :
    let files : FileSystem := { root := .folder [("work", .folder [])], here := ["work"] }
    files.isFolderAt files.here = true
      ∧ (∃ ready place, prepare files "." = .ok (ready, place)
        ∧ ready.root.at? place = some (.folder []))
      ∧ (∀ ops ∈ shortened, Store.Puts Record.Representable ops)
      ∧ ∃ left files' place', sessions "." files shortened = .ok left
        ∧ prepare left "." = .ok (files', place')
        ∧ Store.get (load files' "." place') "p" = .ok (sampleRecord "p" "short")
        ∧ Store.get (load files' "." place') "q" = .error (.notFound "q") := by
  intro files
  have hputs : ∀ ops ∈ shortened, Store.Puts Record.Representable ops := by
    intro ops hops r hr
    simp only [shortened, List.mem_cons, List.not_mem_nil, or_false] at hops
    rcases hops with rfl | rfl
    · rcases List.mem_cons.mp hr with hr | hr
      · cases hr
        exact sampleRecord_representable _ _
      · cases List.mem_singleton.mp hr
        exact sampleRecord_representable _ _
    · rcases List.mem_cons.mp hr with hr | hr
      · cases hr
        exact sampleRecord_representable _ _
      · cases List.mem_singleton.mp hr
  have hpath : Text.split "/" (folderPath ".") = [".", "programs"] := by decide +kernel
  have horigin : files.origin (folderPath ".") = ["work"] := by decide +kernel
  obtain ⟨ready, place, hopen, hempty⟩ : ∃ ready place, prepare files "." = .ok (ready, place)
      ∧ ready.root.at? place = some (.folder []) := by
    refine ⟨{ root := .folder [("work", .folder [("programs", .folder [])])], here := ["work"] },
      ["work", "programs"], ?_, rfl⟩
    unfold prepare FileSystem.makeFolder
    rw [hpath, horigin]
    rfl
  have hnone : Store.Puts Record.Representable [] := fun r hr => by cases hr
  obtain ⟨left, files', place', hleft, hprepare, hfaithful⟩ :=
    faithful_across_sessions rfl hopen hempty hputs hnone
  rw [List.append_nil] at hfaithful
  refine ⟨rfl, ⟨ready, place, hopen, hempty⟩, hputs, left, files', place', hleft, hprepare, ?_, ?_⟩
  · exact hfaithful.get (sampleRecord "p" "short") rfl
      ⟨[.put (sampleRecord "p" "a much longer source text"), .put (sampleRecord "q" "other")],
        [.delete "q"], rfl, by decide⟩
  · refine hfaithful.get_absent "q" rfl fun r hlast => ?_
    have hend : Store.LastPut ([.put (sampleRecord "p" "a much longer source text"),
        .put (sampleRecord "q" "other"), .put (sampleRecord "p" "short")] ++ [.delete "q"]) r := hlast
    rcases Store.lastPut_append_singleton.mp hend with hput | ⟨-, hdelete⟩
    · cases hput
    · exact (ne_of_beq_false hdelete).symm

end EventScript.FileStore
