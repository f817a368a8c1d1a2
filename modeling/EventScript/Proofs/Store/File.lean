/-
Records in files keep the laws of a map for every record that can be written. The folder has
one file for each record, under the name of its id, with the text of the record and nothing
else; that is so of an empty folder, and every step on a file leaves the other files alone. A
put goes through a file cut to nothing, so what it leaves does not depend on what was there.
-/
import EventScript.Proofs.Store.Laws
import EventScript.Proofs.Store.Record
import EventScript.Store.File

namespace EventScript.FileStore

open Store (Record isValidId record?)

variable {name text : String} {folder : Folder}

-- ================================================================= names

theorem toList_fileName (id : String) : (fileName id).toList = id.toList ++ ".json".toList :=
  String.toList_append

/-- Ids are told apart by the names of their files. -/
theorem fileName_inj {a b : String} : fileName a = fileName b ↔ a = b := by
  constructor
  · intro h
    have hlist := congrArg String.toList h
    rw [toList_fileName, toList_fileName] at hlist
    exact String.toList_inj.mp (List.append_cancel_right hlist)
  · intro h
    rw [h]

/-- A file that is named for an id is the file of the id. -/
theorem eq_fileName_of_stem? {id : String} (h : stem? name = some id) :
    name = fileName id := by
  unfold stem? at h
  dsimp only at h
  split at h
  case isTrue hends =>
    obtain ⟨front, hfront⟩ := List.isSuffixOf_iff_suffix.mp (Bool.and_eq_true_iff.mp hends).2
    have hid := Option.some.inj h
    rw [← hfront, List.length_append, Nat.add_sub_cancel, List.take_left] at hid
    rw [← String.toList_inj, toList_fileName, ← hid, String.toList_ofList, hfront]
  case isFalse => cases h

/-- The id is found again in the name of its file. -/
theorem stem?_fileName {id : String} (h : isValidId id = true) : stem? (fileName id) = some id := by
  have hpos : 0 < id.toList.length := by
    refine List.length_pos_iff.mpr fun hnil => ?_
    have hempty : id = "" := String.toList_inj.mp hnil
    rw [hempty] at h
    cases h
  have hends : ".json".toList.isSuffixOf (id.toList ++ ".json".toList) = true :=
    List.isSuffixOf_iff_suffix.mpr (List.suffix_append _ _)
  unfold stem?
  dsimp only
  rw [toList_fileName, List.length_append, Nat.add_sub_cancel, List.take_left, hends,
    String.ofList_toList, if_pos (by simp; omega)]

-- =============================================================== soundness

/-- Every file is one of a record that can be written, under the name of its id. -/
structure Sound (s : FileStore) : Prop where
  ascending : s.folder.Ascending
  files : ∀ {name : String} {tree : FileTree}, s.folder.get? name = some tree →
    ∃ r : Record, name = fileName r.id ∧ tree = .file r.write ∧ isValidId r.id = true
      ∧ r.Representable

theorem sound_empty (root : String) : Sound ⟨[], root⟩ :=
  ⟨Table.ascending_nil, fun h => by cases h⟩

/-- What is read under an id depends on the file of the id alone. -/
theorem get_congr {s s' : FileStore} {id : String}
    (h : s'.folder.get? (fileName id) = s.folder.get? (fileName id)) : s'.get id = s.get id := by
  unfold get
  rw [h]

theorem record?_congr {s s' : FileStore} {id : String}
    (h : s'.folder.get? (fileName id) = s.folder.get? (fileName id)) :
    record? s' id = record? s id :=
  congrArg Except.toOption (get_congr h)

/-- A record that is read is read from the file of a usable id. -/
theorem file_of_get {s : FileStore} {id : String} {r : Record} (h : s.get id = .ok r) :
    isValidId id = true
      ∧ ∃ text, s.folder.get? (fileName id) = some (.file text) ∧ Record.read text = .ok r := by
  unfold get at h
  split at h
  · cases h
  · next hid =>
    refine ⟨Store.checkId_eq_ok_iff.mp hid, ?_⟩
    split at h
    · cases h
    · cases h
    · next text hfile => exact ⟨text, hfile, h⟩

/-- A record that stands in its file is got. -/
theorem get_of_file {s : FileStore} {r : Record} (hid : isValidId r.id = true)
    (hr : r.Representable) (h : s.folder.get? (fileName r.id) = some (.file r.write)) :
    s.get r.id = .ok r := by
  unfold get
  rw [Store.checkId_eq_ok_iff.mpr hid]
  dsimp only
  rw [h]
  exact Record.read_write hr

theorem get_of_no_file {s : FileStore} {id : String} (hid : isValidId id = true)
    (h : s.folder.get? (fileName id) = none) : s.get id = .error (.notFound id) := by
  unfold get
  rw [Store.checkId_eq_ok_iff.mpr hid]
  dsimp only
  rw [h]

/-- A record is there where its file is. -/
theorem Sound.record?_iff {s : FileStore} (hs : s.Sound) {id : String} {r : Record} :
    record? s id = some r ↔ isValidId id = true ∧ r.id = id ∧ r.Representable
      ∧ s.folder.get? (fileName id) = some (.file r.write) := by
  constructor
  · intro h
    have hget : s.get id = .ok r := Store.get_eq_ok_iff.mpr h
    obtain ⟨hid, text, hfile, -⟩ := file_of_get hget
    obtain ⟨r', hname, htext, hid', hr'⟩ := hs.files hfile
    obtain rfl := fileName_inj.mp hname
    rw [htext] at hfile
    rw [get_of_file hid' hr' hfile] at hget
    cases hget
    exact ⟨hid, rfl, hr', hfile⟩
  · intro h
    obtain ⟨hid, rfl, hr, hfile⟩ := h
    exact Store.get_eq_ok_iff.mp (get_of_file hid hr hfile)

/-- In a sound folder only an id without a file has no record. -/
theorem Sound.record?_eq_none_iff {s : FileStore} (hs : s.Sound) {id : String}
    (hid : isValidId id = true) : record? s id = none ↔ s.folder.get? (fileName id) = none := by
  constructor
  · intro h
    cases hfile : s.folder.get? (fileName id) with
    | none => rfl
    | some tree =>
        obtain ⟨r, hname, rfl, -, hr⟩ := hs.files hfile
        rw [hs.record?_iff.mpr ⟨hid, (fileName_inj.mp hname).symm, hr, hfile⟩] at h
        cases h
  · intro h
    show (s.get id).toOption = none
    rw [get_of_no_file hid h]
    rfl

-- =================================================================== steps

/-- The text of a file after a step on it. -/
def WriteStep.onText (old : String) : WriteStep → String
  | opening | lock | sync => old
  | truncate => ""
  | write new => new ++ String.ofList (old.toList.drop new.length)

/-- Nothing is left behind the text in a file that was cut to nothing. -/
theorem onText_write_of_empty (new : String) : WriteStep.onText "" (.write new) = new := by
  show new ++ String.ofList ([].drop new.length) = new
  rw [List.drop_nil]
  exact String.append_empty

/-- A step on a file that is there does to its text what it does to a text, and nothing to other
files. -/
theorem WriteStep.run_file (step : WriteStep) (h : folder.get? name = some (.file text)) :
    ∃ folder', step.run name folder = .ok folder' ∧ (folder.Ascending → folder'.Ascending)
      ∧ ∀ other, folder'.get? other
        = if other = name then some (.file (step.onText text)) else folder.get? other := by
  have hsame : ∀ other, folder.get? other
      = if other = name then some (.file text) else folder.get? other := by
    intro other
    split
    case isTrue heq => rw [heq, h]
    case isFalse => rfl
  cases step with
  | opening => exact ⟨folder, by simp only [run, h], id, hsame⟩
  | lock => exact ⟨folder, rfl, id, hsame⟩
  | sync => exact ⟨folder, rfl, id, hsame⟩
  | truncate => exact ⟨_, rfl, fun hf => hf.insert _ _, fun other => Table.get?_insert ..⟩
  | write new =>
      refine ⟨folder.insert name (.file (WriteStep.onText text (.write new))), ?_,
        fun hf => hf.insert _ _, fun other => Table.get?_insert ..⟩
      simp only [run, h]
      rfl

/-- A run of steps makes of the text what its steps make of it, and leaves the other files as
they are. -/
theorem run_file (steps : List WriteStep) (h : folder.get? name = some (.file text)) :
    ∃ folder', steps.foldlM (WriteStep.run name) folder = .ok folder'
      ∧ (folder.Ascending → folder'.Ascending)
      ∧ ∀ other, folder'.get? other
        = if other = name then some (.file (steps.foldl WriteStep.onText text))
          else folder.get? other := by
  induction steps generalizing folder text with
  | nil =>
      refine ⟨folder, rfl, id, fun other => ?_⟩
      split
      case isTrue heq => rw [heq, h]; rfl
      case isFalse => rfl
  | cons step steps ih =>
      obtain ⟨next, hstep, hascending, hnext⟩ := step.run_file h
      have hfile : next.get? name = some (.file (step.onText text)) := by rw [hnext, if_pos rfl]
      obtain ⟨last, hrun, hlater, hlast⟩ := ih hfile
      refine ⟨last, ?_, fun hf => hlater (hascending hf), fun other => ?_⟩
      · rw [List.foldlM_cons, hstep]
        exact hrun
      · rw [hlast, List.foldl_cons]
        split
        case isTrue => rfl
        case isFalse hne => rw [hnext, if_neg hne]

-- ============================================================== operations

/-- Opening makes the file of an id if it is missing, and leaves the other files alone. -/
theorem opening_eq_ok {s : FileStore} (hs : s.Sound) (id : String) :
    ∃ folder, WriteStep.opening.run (fileName id) s.folder = .ok folder ∧ folder.Ascending
      ∧ (∃ text, folder.get? (fileName id) = some (.file text))
      ∧ ∀ name, name ≠ fileName id → folder.get? name = s.folder.get? name := by
  unfold WriteStep.run
  cases hfile : s.folder.get? (fileName id) with
  | none =>
      refine ⟨_, rfl, hs.ascending.insert _ _, ⟨"", ?_⟩, fun name hne => ?_⟩
      · rw [Table.get?_insert, if_pos rfl]
      · rw [Table.get?_insert, if_neg hne]
  | some tree =>
      obtain ⟨r, -, rfl, -⟩ := hs.files hfile
      exact ⟨_, rfl, hs.ascending, ⟨_, hfile⟩, fun _ _ => rfl⟩

/-- A put is its steps, where they all run. -/
theorem put_of_run {s : FileStore} {r : Record} (hid : isValidId r.id = true)
    (hrun : (writeSteps r).foldlM (WriteStep.run (fileName r.id)) s.folder = .ok folder) :
    s.put r = .ok { s with folder } := by
  unfold put
  rw [Store.checkId_eq_ok_iff.mpr hid]
  dsimp only
  rw [hrun]
  rfl

/-- After a put the file of the id has the text of the record, and the other files are as
they were. -/
theorem put_eq_ok {s : FileStore} (hs : s.Sound) {r : Record} (hid : isValidId r.id = true) :
    ∃ folder, s.put r = .ok { s with folder } ∧ folder.Ascending
      ∧ ∀ name, folder.get? name
        = if name = fileName r.id then some (.file r.write) else s.folder.get? name := by
  obtain ⟨opened, hopening, hascending, ⟨text, hfile⟩, hothers⟩ := opening_eq_ok hs r.id
  obtain ⟨folder, hrun, hkeeps, hfiles⟩ := run_file [.lock, .truncate, .write r.write, .sync] hfile
  refine ⟨folder, put_of_run hid ?_, hkeeps hascending, fun name => ?_⟩
  · show (WriteStep.opening.run (fileName r.id) s.folder).bind _ = _
    rw [hopening]
    exact hrun
  · rw [hfiles]
    split
    case isTrue => exact congrArg (some ∘ FileTree.file) (onText_write_of_empty r.write)
    case isFalse hne => exact hothers name hne

/-- A put over a file replaces what it holds, whatever that is. -/
theorem put_of_file {s : FileStore} {r : Record} (hid : isValidId r.id = true)
    (hr : r.Representable) (h : s.folder.get? (fileName r.id) = some (.file text)) :
    ∃ folder, s.put r = .ok { s with folder } ∧ get { s with folder } r.id = .ok r
      ∧ ∀ id, id ≠ r.id → get { s with folder } id = s.get id := by
  obtain ⟨folder, hrun, -, hfiles⟩ := run_file (writeSteps r) h
  refine ⟨folder, put_of_run hid hrun, get_of_file hid hr ?_, fun id hne => get_congr ?_⟩
  · rw [hfiles, if_pos rfl]
    exact congrArg (some ∘ FileTree.file) (onText_write_of_empty r.write)
  · rw [hfiles, if_neg fun h => hne (fileName_inj.mp h)]

/-- The ids of the files, in order, each once. -/
theorem Sound.ids_spec {s : FileStore} (hs : s.Sound) :
    (ids s.folder).Pairwise (· < ·)
      ∧ ∀ id, id ∈ ids s.folder ↔ (record? s id).isSome = true := by
  -- two names with one stem are one name, and names in ascending order differ
  have hdistinct : (s.folder.keys.filterMap stem?).Pairwise (· ≠ ·) := by
    refine List.Pairwise.filterMap stem? ?_ hs.ascending
    intro name name' hlt id hid id' hid' heq
    rw [eq_fileName_of_stem? hid, eq_fileName_of_stem? hid', heq] at hlt
    exact String.lt_irrefl _ hlt
  refine ⟨?_, ?_⟩
  · have htrans : ∀ a b c : String, decide (a ≤ b) = true → decide (b ≤ c) = true →
        decide (a ≤ c) = true := fun a b c hab hbc =>
      decide_eq_true (String.le_trans (of_decide_eq_true hab) (of_decide_eq_true hbc))
    have htotal : ∀ a b : String, (decide (a ≤ b) || decide (b ≤ a)) = true := by
      intro a b
      rw [Bool.or_eq_true, decide_eq_true_iff, decide_eq_true_iff]
      exact String.le_total a b
    have hsorted : (ids s.folder).Pairwise fun a b => decide (a ≤ b) = true :=
      List.pairwise_mergeSort htrans htotal _
    have hnodup : (ids s.folder).Pairwise (· ≠ ·) :=
      (List.mergeSort_perm _ _).nodup_iff.mpr hdistinct
    refine List.Pairwise.imp₂ ?_ hsorted hnodup
    intro a b hle hne
    refine String.not_le.mp fun hge => hne ?_
    exact String.le_antisymm (of_decide_eq_true hle) hge
  · intro id
    unfold ids
    rw [List.mem_mergeSort, List.mem_filterMap]
    constructor
    · intro h
      obtain ⟨name, hname, hstem⟩ := h
      obtain rfl := eq_fileName_of_stem? hstem
      obtain ⟨tree, hfile⟩ := Option.isSome_iff_exists.mp (Table.isSome_get?_iff.mpr hname)
      obtain ⟨r, hr, rfl, hid, hwritten⟩ := hs.files hfile
      obtain rfl := fileName_inj.mp hr
      rw [hs.record?_iff.mpr ⟨hid, rfl, hwritten, hfile⟩]
      rfl
    · intro h
      obtain ⟨r, hr⟩ := Option.isSome_iff_exists.mp h
      obtain ⟨hid, -, -, hfile⟩ := hs.record?_iff.mp hr
      refine ⟨fileName id, Table.isSome_get?_iff.mp ?_, stem?_fileName hid⟩
      rw [hfile]
      rfl

/-- The store in files keeps the laws of stores, for records that can be written. -/
theorem laws : Store.Laws FileStore Sound Record.Representable where
  get_absent := by
    intro s id hs hid hr
    exact get_of_no_file hid ((hs.record?_eq_none_iff hid).mp hr)
  put := by
    intro s r hs hid hr
    obtain ⟨folder, hput, hascending, hfiles⟩ := put_eq_ok hs hid
    -- the new file is a whole record under its own name, every other was sound before
    have hs' : Sound { s with folder } := by
      refine ⟨hascending, ?_⟩
      intro name tree hfile
      rw [hfiles] at hfile
      split at hfile
      case isTrue hname =>
        cases hfile
        exact ⟨r, hname, rfl, hid, hr⟩
      case isFalse => exact hs.files hfile
    refine ⟨_, hput, hs', fun id => ?_⟩
    by_cases heq : id = r.id
    · rw [if_pos heq]
      refine hs'.record?_iff.mpr ⟨heq ▸ hid, heq.symm, hr, ?_⟩
      rw [hfiles, heq, if_pos rfl]
    · rw [if_neg heq]
      refine record?_congr ?_
      rw [hfiles, if_neg fun h => heq (fileName_inj.mp h)]
  delete := by
    intro s id r hs hr
    have hget : s.get id = .ok r := Store.get_eq_ok_iff.mpr hr
    have hfiles := hs.ascending.get?_erase (fileName id)
    have hs' : Sound { s with folder := s.folder.erase (fileName id) } := by
      refine ⟨hs.ascending.erase _, ?_⟩
      intro name tree hfile
      rw [hfiles] at hfile
      split at hfile
      case isTrue => cases hfile
      case isFalse => exact hs.files hfile
    refine ⟨_, ?_, hs', fun other => ?_⟩
    · show s.delete id = _
      unfold delete
      rw [hget]
      rfl
    · by_cases heq : other = id
      · rw [if_pos heq]
        refine (hs'.record?_eq_none_iff (heq ▸ (hs.record?_iff.mp hr).1)).mpr ?_
        rw [hfiles, heq, if_pos rfl]
      · rw [if_neg heq]
        refine record?_congr ?_
        rw [hfiles, if_neg fun h => heq (fileName_inj.mp h)]
  delete_absent := by
    intro s id hs hr
    obtain ⟨e, he⟩ := Store.get_eq_error_of_record? hr
    refine ⟨e, ?_⟩
    show s.delete id = _
    have hget : s.get id = .error e := he
    unfold delete
    rw [hget]
    rfl
  list := fun hs => ⟨_, rfl, hs.ids_spec⟩

end EventScript.FileStore
