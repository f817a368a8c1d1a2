/-
Updating a stored program from a line. The cast is kept or replaced as a whole: a line that says
nothing about it leaves all of it, and a line that says anything describes a new one, in which
what the line does not say is not there. So a program keeps the address that it listens to if the
line has no flag at all or names the address, and one flag alone, other than that of the address,
is enough for it to hear no event any more.
-/
import EventScript.CommandLine.Execution
import EventScript.Proofs.Host.Soundness
import EventScript.Proofs.Store.Session
import EventScript.Proofs.Text.Numeral

namespace EventScript

open Store (Record)

-- ==================================================================== hosts

/-- A host that has updated a program in files reads it back, and the others as before. -/
theorem Host.update_of_file {h h' : Host FileStore} {id source : String} {cast : Cast}
    {former r : Record} (hformer : h.store.get id = .ok former) (hcast : cast.Representable)
    (hnow : h.world.now.Representable) (hok : h.update id source cast = (.ok r, h')) :
    r = ⟨id, source, cast, h.world.now⟩ ∧ h'.store.root = h.store.root ∧ h'.store.get id = .ok r
      ∧ ∀ other, other ≠ id → h'.store.get other = h.store.get other := by
  obtain ⟨hid, text, hfile, -⟩ := FileStore.file_of_get hformer
  unfold update at hok
  cases hamend : h.amend id source cast with
  | error e =>
      rw [hamend] at hok
      cases hok
  | ok offered =>
      rw [hamend] at hok
      obtain ⟨-, rfl⟩ := amend_eq_ok.mp hamend
      obtain ⟨folder, hput, hget, hothers⟩ :=
        FileStore.put_of_file (r := ⟨id, source, cast, h.world.now⟩) hid ⟨hcast, hnow⟩ hfile
      obtain ⟨hanswer, hstore⟩ := keep_of_put (h := h) hput "Updated"
      dsimp only at hok
      rw [hok] at hanswer hstore
      obtain rfl := Except.ok.inj hanswer
      dsimp only at hstore
      rw [hstore]
      exact ⟨rfl, rfl, hget, hothers⟩

namespace CommandLine

-- ==================================================================== flags

/-- A chain that a line gives is a word of 64 bits, since any other is refused when the line is
scanned. -/
theorem castFlags_chainId (l : Level) : ∀ n ∈ l.castFlags.chainId, n < 0x10000000000000000 := by
  intro n hn
  obtain ⟨s, -, hs⟩ := Option.bind_eq_some_iff.mp hn
  exact Text.lt_of_unsignedBelow? hs

theorem castOver_representable {flags : CastFlags} {former : Cast}
    (hflags : ∀ n ∈ flags.chainId, n < 0x10000000000000000) (hformer : former.Representable)
    (id : String) : (flags.castOver id former).Representable := by
  unfold CastFlags.castOver
  split
  · exact hformer
  · exact hflags

-- ================================================================= commands

/-- A store that holds a record is in a folder. -/
theorem isFolderAt_of_get {files : FileSystem} {root id : String} {place : Location} {r : Record}
    (h : (FileStore.load files root place).get id = .ok r) : files.isFolderAt place = true := by
  obtain ⟨-, text, hfile, -⟩ := FileStore.file_of_get h
  unfold FileStore.load FileSystem.folderAt at hfile
  dsimp only at hfile
  split at hfile
  · next entries hat => exact FileSystem.isFolderAt_iff.mpr ⟨entries, hat⟩
  · cases hfile

variable {c : Context} {root id file : String} {files : FileSystem} {place : Location}

/-- What a command about a store comes to is the effect that it has on the host, and the files
have the store as the host leaves it. -/
theorem program_of_prepare (hopen : FileStore.prepare c.files root = .ok (files, place))
    {command : StoreCommand} {result : Except Failure (List String)} {h : Host FileStore}
    (happly : Context.apply { c with files }
      (.new (FileStore.load files root place) c.settings c.world) command = (result, h)) :
    (c.program root command).result = result.map (fun _ => ())
      ∧ (c.program root command).files = h.store.save files place := by
  unfold Context.program
  simp only [hopen, happly]
  cases result with
  | error f => exact ⟨rfl, trivial⟩
  | ok lines => exact ⟨rfl, trivial⟩

/-- What an update does, layer by layer: the file is read, then the record, and only then is
anything written. -/
theorem apply_update (h : Host FileStore) (flags : CastFlags) :
    c.apply h (.update id file flags) = match c.read file with
      | .error f => (.error f, h)
      | .ok source => match h.get id with
        | .error e => (.error (.host e), h)
        | .ok former =>
          c.told .green "Updated" (h.update id source (flags.castOver id former.cast)) := rfl

/-- An update that succeeds has the host update the program, its cast overlaid with the flags. -/
theorem update_of_apply {h h' : Host FileStore} {flags : CastFlags} {lines : List String}
    {former : Record} (hformer : h.store.get id = .ok former)
    (hok : c.apply h (.update id file flags) = (.ok lines, h')) :
    ∃ source r, h.update id source (flags.castOver id former.cast) = (.ok r, h') := by
  have hget : h.get id = .ok former := Except.mapError_eq_ok.mpr hformer
  rw [apply_update, hget] at hok
  cases hread : c.read file with
  | error f =>
      rw [hread] at hok
      cases hok
  | ok source =>
      rw [hread] at hok
      dsimp only at hok
      cases hupdate : h.update id source (flags.castOver id former.cast) with
      | mk answer after =>
          rw [hupdate] at hok
          cases answer with
          | error e => cases hok
          | ok r =>
              cases hok
              exact ⟨source, r, hupdate⟩

/-- Without flags the cast stays; with any of them it is built anew, and what no flag gives is
lost. -/
theorem castOver_eq (flags : CastFlags) (id : String) (former : Cast) :
    flags.castOver id former = if flags = {} then former
      else
        { id := flags.id.getD id, name := none, address := flags.address,
          chainId := flags.chainId } := by
  have hempty : flags.isEmpty = true ↔ flags = {} := by
    obtain ⟨id, address, chainId⟩ := flags
    cases id <;> cases address <;> cases chainId <;> simp [CastFlags.isEmpty]
  unfold CastFlags.castOver
  simp only [hempty]
  rfl

/-- After an update the record of the program is there with its cast overlaid, and the other
records are as they were. -/
theorem record_of_update (hnow : c.world.now.Representable) (l : Level) {former : Record}
    (hopen : FileStore.prepare c.files root = .ok (files, place))
    (hformer : (FileStore.load files root place).get id = .ok former)
    (hok : (c.program root (.update id file l.castFlags)).result = .ok ()) :
    let before := FileStore.load files root place
    let after := FileStore.load (c.program root (.update id file l.castFlags)).files root place
    ∃ r, after.get id = .ok r ∧ r.cast = l.castFlags.castOver id former.cast
      ∧ ∀ other, other ≠ id → after.get other = before.get other := by
  intro before after
  let h : Host FileStore := .new before c.settings c.world
  cases heffect : Context.apply { c with files } h (.update id file l.castFlags) with
  | mk result h' =>
      obtain ⟨hresult, hfiles⟩ := program_of_prepare hopen heffect
      rw [hok] at hresult
      cases result with
      | error f => cases hresult
      | ok lines =>
          obtain ⟨source, r, hupdate⟩ := update_of_apply (h := h) hformer heffect
          have hwritable : former.cast.Representable := by
            obtain ⟨-, text, -, hread⟩ := FileStore.file_of_get hformer
            exact Store.Record.cast_representable_of_read hread
          obtain ⟨rfl, hroot, hget, hothers⟩ := Host.update_of_file (h := h) hformer
            (castOver_representable (castFlags_chainId l) hwritable id) hnow hupdate
          have hafter : after = h'.store := by
            show FileStore.load (c.program root (.update id file l.castFlags)).files root place = _
            rw [hfiles]
            exact FileStore.load_save (isFolderAt_of_get hformer) h'.store hroot
          rw [hafter]
          exact ⟨_, hget, rfl, hothers⟩

/-- The cast of a stored program after an update from a line: where none of the flags is given it
is the one that was stored, with all that it had; where any is, it is the one the flags
describe, and an address that they do not name is gone. No other program changes. -/
theorem cast_of_update (hnow : c.world.now.Representable) (l : Level) {former : Record}
    (hopen : FileStore.prepare c.files root = .ok (files, place))
    (hformer : (FileStore.load files root place).get id = .ok former)
    (hok : (c.program root (.update id file l.castFlags)).result = .ok ()) :
    let flags := l.castFlags
    let before := FileStore.load files root place
    let after := FileStore.load (c.program root (.update id file flags)).files root place
    ∃ r, after.get id = .ok r
      ∧ r.cast = (if flags = {} then former.cast
          else
            { id := flags.id.getD id, name := none, address := flags.address,
              chainId := flags.chainId })
      ∧ (flags ≠ {} → flags.address = none → ∀ address, Host.listens r address = false)
      ∧ ∀ other, other ≠ id → after.get other = before.get other := by
  intro flags before after
  obtain ⟨r, hget, hcast, hothers⟩ := record_of_update hnow l hopen hformer hok
  rw [castOver_eq] at hcast
  refine ⟨r, hget, hcast, fun hne hnone address => ?_, hothers⟩
  rw [if_neg hne] at hcast
  unfold Host.listens
  rw [hcast]
  show flags.address.any _ = false
  rw [hnone]
  rfl

/-- A store with one program, that listens at an address, and a source to update it with. -/
def listening : Context where
  files :=
    { root := .folder [("work", .folder [
        ("p.yaml", .file
          "version: \"1\"\nprogram:\n  - set:\n      variable: seen\n      value: true\n"),
        ("programs", .folder [("p.json", .file (FileStore.sampleRecord "p" "before").write)])])]
      here := ["work"] }
  settings := {}

/-- A line that updates the program and gives its chain. -/
def movedChain : Level :=
  { command := "update", words := ["p", "p.yaml"], values := [("chain-id", "5")] }

theorem prepare_listening :
    FileStore.prepare listening.files "." = .ok (listening.files, ["work", "programs"]) := by
  have hpath : Text.split "/" (FileStore.folderPath ".") = [".", "programs"] := by decide +kernel
  have horigin : listening.files.origin (FileStore.folderPath ".") = ["work"] := by decide +kernel
  unfold FileStore.prepare FileSystem.makeFolder
  rw [hpath, horigin]
  rfl

theorem get_listening :
    (FileStore.load listening.files "." ["work", "programs"]).get "p"
      = .ok (FileStore.sampleRecord "p" "before") :=
  FileStore.get_of_file (r := FileStore.sampleRecord "p" "before") rfl
    (FileStore.sampleRecord_representable _ _) rfl

theorem update_listening :
    (listening.program "." (.update "p" "p.yaml" movedChain.castFlags)).result = .ok () :=
  Except.toOption_eq_some.mp (by decide +kernel)

theorem now_listening : listening.world.now.Representable := ⟨by decide +kernel, by decide⟩

theorem cast_of_update_movedChain :
    listening.world.now.Representable
      ∧ FileStore.prepare listening.files "." = .ok (listening.files, ["work", "programs"])
      ∧ (FileStore.load listening.files "." ["work", "programs"]).get "p"
        = .ok (FileStore.sampleRecord "p" "before")
      ∧ (listening.program "." (.update "p" "p.yaml" movedChain.castFlags)).result = .ok ()
      ∧ ∃ r, (FileStore.load
          (listening.program "." (.update "p" "p.yaml" movedChain.castFlags)).files "."
          ["work", "programs"]).get "p" = .ok r
        ∧ r.cast = { id := "p", chainId := some 5 } := by
  obtain ⟨r, hget, hcast, -⟩ :=
    cast_of_update now_listening movedChain prepare_listening get_listening update_listening
  have hflags : movedChain.castFlags = { chainId := some 5 } := by decide +kernel
  rw [hflags, if_neg (by decide)] at hcast
  exact ⟨now_listening, prepare_listening, get_listening, update_listening, r, hget, hcast⟩

/-- With its chain alone given, the program that listened at an address has none any more. -/
theorem update_detaches_program :
    (FileStore.load listening.files "." ["work", "programs"]).get "p"
        = .ok (FileStore.sampleRecord "p" "before")
      ∧ (FileStore.sampleRecord "p" "before").cast.address = some "0xA"
      ∧ movedChain.castFlags.address = none
      ∧ (listening.program "." (.update "p" "p.yaml" movedChain.castFlags)).result = .ok ()
      ∧ ∃ r, (FileStore.load
          (listening.program "." (.update "p" "p.yaml" movedChain.castFlags)).files "."
          ["work", "programs"]).get "p" = .ok r
        ∧ r.cast.address = none := by
  obtain ⟨r, hget, hcast, -⟩ :=
    record_of_update now_listening movedChain prepare_listening get_listening update_listening
  refine ⟨get_listening, rfl, by decide +kernel, update_listening, r, hget, ?_⟩
  rw [hcast]
  decide +kernel

end CommandLine
end EventScript
