/-
Putting a tree into a tree. What was put at a location is found there, if nothing but folders
is on the way; and a folder elsewhere stays a folder, unless it was inside the tree that gave
way. So a folder that a path was made to lead to is there when the same path is followed
again, whatever has been put into it in the meantime.
-/
import EventScript.FileSystem
import EventScript.Proofs.Table

namespace EventScript

namespace FileTree

variable {t new : FileTree} {location other : Location}

/-- A location is followed in two stretches. -/
theorem at?_append (t : FileTree) (location rest : Location) :
    t.at? (location ++ rest) = (t.at? location).bind fun c => c.at? rest := by
  induction location generalizing t with
  | nil => rfl
  | cons name location ih =>
      cases t with
      | file text => rfl
      | folder entries =>
          simp only [List.cons_append, at?]
          cases Table.get? name entries with
          | none => rfl
          | some c => exact ih c

/-- What a location on the way leads to is a folder. -/
theorem at?_of_prefix (h : (t.at? (location ++ other)).isSome = true) (hne : other ≠ []) :
    ∃ entries, t.at? location = some (.folder entries) := by
  rw [at?_append] at h
  cases hat : t.at? location with
  | none =>
      rw [hat] at h
      cases h
  | some c =>
      cases c with
      | folder entries => exact ⟨entries, rfl⟩
      | file text =>
          rw [hat] at h
          cases other with
          | nil => exact absurd rfl hne
          | cons name other => cases h

/-- A tree is put into a folder under a name, or in place of what the folder has there. -/
theorem at?_put_self {entries : Folder} {parent : Location} {name : String}
    (h : t.at? parent = some (.folder entries)) :
    (t.put new (parent ++ [name])).at? (parent ++ [name]) = some new := by
  induction parent generalizing t with
  | nil =>
      cases h
      simp [put, at?, Table.get?_insert]
  | cons n parent ih =>
      cases t with
      | file text => cases h
      | folder entries' =>
          simp only [at?] at h
          cases hn : Table.get? n entries' with
          | none =>
              rw [hn] at h
              cases h
          | some c =>
              rw [hn] at h
              simp only [List.cons_append, put, at?, Table.get?_insert, if_true, hn,
                Option.getD_some, Option.bind_some]
              exact ih h

/-- A folder that is not inside the tree that gives way stays a folder. -/
theorem at?_put_of_folder {entries : Folder} (h : t.at? other = some (.folder entries))
    (hout : ¬ location <+: other) :
    ∃ entries', (t.put new location).at? other = some (.folder entries') := by
  induction location generalizing t other with
  | nil => exact absurd List.nil_prefix hout
  | cons name location ih =>
      cases t with
      | file text => exact ⟨entries, h⟩
      | folder entries' =>
          cases other with
          | nil => exact ⟨_, rfl⟩
          | cons n other =>
              simp only [at?] at h
              simp only [put, at?, Table.get?_insert]
              by_cases hn : n = name
              · subst hn
                rw [if_pos rfl]
                cases hc : Table.get? n entries' with
                | none =>
                    rw [hc] at h
                    cases h
                | some c =>
                    rw [hc] at h
                    refine ih h fun hprefix => hout ?_
                    exact List.cons_prefix_cons.mpr ⟨rfl, hprefix⟩
              · rw [if_neg hn]
                exact ⟨entries, h⟩

end FileTree

namespace FileSystem

variable {fs fs' : FileSystem} {location place : Location} {segments : List String}

theorem isFolderAt_iff :
    fs.isFolderAt location = true ↔ ∃ entries, fs.root.at? location = some (.folder entries) := by
  unfold isFolderAt
  split
  · next entries h => simp [h]
  · next h => simpa using h

/-- The locations that segments lead through; the last is where they lead. -/
def trail (location : Location) : List String → List Location
  | [] => []
  | segment :: rest => advance location segment :: trail (advance location segment) rest

/-- Behind a folder there is its name in it, or a folder again. -/
theorem advance_cases (h : fs.isFolderAt location = true) (segment : String) :
    advance location segment = location ++ [segment]
      ∨ fs.isFolderAt (advance location segment) = true := by
  unfold advance
  split
  · exact Or.inr h
  · split
    · right
      rcases List.eq_nil_or_concat location with rfl | ⟨parent, name, rfl⟩
      · exact h
      · rw [List.concat_eq_append] at h ⊢
        obtain ⟨entries, hat⟩ := isFolderAt_iff.mp h
        rw [List.dropLast_concat]
        exact isFolderAt_iff.mpr (FileTree.at?_of_prefix (by rw [hat]; rfl) (List.cons_ne_nil _ _))
    · exact Or.inl rfl

/-- A path made from a folder leads through folders, and folders stay folders. -/
theorem folders_of_makeFrom (hfolder : fs.isFolderAt location = true)
    (h : fs.makeFrom location segments = .ok (fs', place)) :
    fs'.here = fs.here ∧ place = (trail location segments).getLastD location
      ∧ (∀ v, fs.isFolderAt v = true → fs'.isFolderAt v = true)
      ∧ ∀ v ∈ trail location segments, fs'.isFolderAt v = true := by
  induction segments generalizing fs location with
  | nil =>
      cases h
      exact ⟨rfl, rfl, fun _ hv => hv, fun _ hv => absurd hv List.not_mem_nil⟩
  | cons segment segments ih =>
      unfold makeFrom at h
      dsimp only at h
      split at h
      · next entries hat =>
        have hnext : fs.isFolderAt (advance location segment) = true :=
          isFolderAt_iff.mpr ⟨entries, hat⟩
        obtain ⟨hhere, hplace, hkeeps, htrail⟩ := ih hnext h
        refine ⟨hhere, ?_, hkeeps, List.forall_mem_cons.mpr ⟨hkeeps _ hnext, htrail⟩⟩
        rw [hplace, trail, List.getLastD_cons]
      · cases h
      · next hnone =>
        have hnew : advance location segment = location ++ [segment] := by
          refine (advance_cases hfolder segment).resolve_right fun hnext => ?_
          obtain ⟨entries, hat⟩ := isFolderAt_iff.mp hnext
          rw [hnone] at hat
          cases hat
        have hnext : (fs.putAt (advance location segment) (.folder [])).isFolderAt
            (advance location segment) = true := by
          obtain ⟨entries, hat⟩ := isFolderAt_iff.mp hfolder
          rw [hnew]
          exact isFolderAt_iff.mpr ⟨[], FileTree.at?_put_self hat⟩
        obtain ⟨hhere, hplace, hkeeps, htrail⟩ := ih hnext h
        refine ⟨hhere, ?_, fun v hv => hkeeps v ?_,
          List.forall_mem_cons.mpr ⟨hkeeps _ hnext, htrail⟩⟩
        · rw [hplace, trail, List.getLastD_cons]
        · obtain ⟨entries, hat⟩ := isFolderAt_iff.mp hv
          refine isFolderAt_iff.mpr (FileTree.at?_put_of_folder hat ?_)
          -- nothing is below a location that leads nowhere
          rintro ⟨rest, rfl⟩
          rw [FileTree.at?_append, hnone] at hat
          cases hat

/-- A path that leads through folders is followed without making any. -/
theorem makeFrom_of_folders (h : ∀ v ∈ trail location segments, fs.isFolderAt v = true) :
    fs.makeFrom location segments = .ok (fs, (trail location segments).getLastD location) := by
  induction segments generalizing location with
  | nil => rfl
  | cons segment segments ih =>
      obtain ⟨hnext, hrest⟩ := List.forall_mem_cons.mp h
      obtain ⟨entries, hat⟩ := isFolderAt_iff.mp hnext
      unfold makeFrom
      dsimp only
      rw [hat]
      dsimp only
      rw [ih hrest, trail, List.getLastD_cons]

/-- Another folder in place of one is found there. -/
theorem at?_putAt_of_folder (h : fs.isFolderAt place = true) (new : FileTree) :
    (fs.putAt place new).root.at? place = some new := by
  rcases List.eq_nil_or_concat place with rfl | ⟨parent, name, rfl⟩
  · rfl
  · rw [List.concat_eq_append] at h ⊢
    obtain ⟨entries, hat⟩ := isFolderAt_iff.mp h
    have hthere : (fs.root.at? (parent ++ [name])).isSome = true := by rw [hat]; rfl
    obtain ⟨entries', hparent⟩ := FileTree.at?_of_prefix hthere (List.cons_ne_nil name [])
    exact FileTree.at?_put_self hparent

end FileSystem
end EventScript
