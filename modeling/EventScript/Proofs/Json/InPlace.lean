/-
Changing a value in place. A place is found once and then both read and written: it holds the
value there is, and tells what the whole becomes with another value there. Reading, exchanging
and assigning each go down a path on their own; a place is what they have to agree about, so
each of them is told here by the place at the end of the path.

A written path is its segments. Any text is pieces without a dot joined by dots, and the empty
pieces do not count, so the ways of writing the segments differ in surplus dots alone; putting
a dot between two paths goes on from the end of the first along the second.
-/
import EventScript.Proofs.Globals
import EventScript.Proofs.Table

namespace EventScript

-- ========================================================= written paths

namespace Path

variable {p q : String} {segments : Path}

/-- The text writes the segments: it is made of texts without a dot, with a dot between
neighbours, and the segments are those that are not empty. -/
def Writes (p : String) (segments : Path) : Prop :=
  ∃ pieces : List String, (∀ s ∈ pieces, '.' ∉ s.toList) ∧ p = Text.join "." pieces
    ∧ segments = pieces.filter (· ≠ "")

/-- A text without a dot is one segment, unless it is empty. -/
theorem ofString_of_not_mem {s : String} (h : '.' ∉ s.toList) :
    ofString s = [s].filter (· ≠ "") := by
  have hpieces : Text.piecesAt (· == '.') s.toList = [s.toList] := by
    refine Text.piecesAt_of_forall_not fun c hc => ?_
    exact beq_false_of_ne fun heq => h (heq ▸ hc)
  unfold ofString
  rw [hpieces]
  by_cases hs : s = ""
  · simp [hs]
  · simp [hs]

/-- Texts between dots are the segments, without the empty ones. -/
theorem ofString_join {pieces : List String} (h : ∀ s ∈ pieces, '.' ∉ s.toList) :
    ofString (Text.join "." pieces) = pieces.filter (· ≠ "") := by
  induction pieces with
  | nil => rfl
  | cons s rest ih =>
      rw [List.forall_mem_cons] at h
      cases rest with
      | nil => exact ofString_of_not_mem h.1
      | cons t rest =>
          have hjoin : Text.join "." (s :: t :: rest) = s ++ "." ++ Text.join "." (t :: rest) := rfl
          rw [hjoin, ofString_append, ih h.2, ofString_of_not_mem h.1, ← List.filter_append,
            List.singleton_append]

/-- A text writes its segments and no others. -/
theorem writes_iff : Writes p segments ↔ ofString p = segments := by
  constructor
  · intro h
    obtain ⟨pieces, hdots, rfl, rfl⟩ := h
    exact ofString_join hdots
  · intro h
    have hdots : ∀ s ∈ (Text.piecesAt (· == '.') p.toList).map String.ofList,
        '.' ∉ s.toList := by
      intro s hs hdot
      obtain ⟨piece, hpiece, rfl⟩ := List.mem_map.mp hs
      rw [String.toList_ofList] at hdot
      have hnot := Text.not_of_mem_piecesAt hpiece hdot
      cases hnot
    have hjoin : p = Text.join "." ((Text.piecesAt (· == '.') p.toList).map String.ofList) :=
      String.toList_inj.mp (Text.join_piecesAt '.' p.toList).symm
    refine ⟨_, hdots, hjoin, ?_⟩
    rw [← ofString_join hdots, ← hjoin, h]

/-- A text has a segment when it is not nothing but dots. -/
theorem ofString_ne_nil_iff : ofString p ≠ [] ↔ ∃ c ∈ p.toList, c ≠ '.' := by
  have hnil : ofString p = [] ↔ ∀ c ∈ p.toList, c = '.' := by
    rw [← Text.forall_piecesAt_nil_iff]
    simp [ofString, List.filter_eq_nil_iff]
  rw [ne_eq, hnil]
  simp

end Path

-- ================================================================ places

namespace Json

variable {v root c new : Json} {segment : String} {p : Path}

/-- A place in a value: what it holds, and the whole with another value there. -/
structure Place where
  held : Json
  fill : Json → Json

/-- The place at the end of a path. -/
def place? (v : Json) : Path → Option Place
  | [] => some ⟨v, id⟩
  | segment :: rest =>
    (v.child? segment).bind fun c =>
      (c.place? rest).map fun place =>
        ⟨place.held, fun new => v.replaceChild segment (place.fill new)⟩

/-- The place at a written path; a path without segments leads to none. -/
def placeAt? (root : Json) (path : String) : Option Place :=
  match Path.ofString path with
  | [] => none
  | segments => root.place? segments

theorem placeAt?_of_ne_nil {p : String} (h : Path.ofString p ≠ []) :
    root.placeAt? p = root.place? (Path.ofString p) := by
  unfold placeAt?
  split
  · contradiction
  · rfl

theorem placeAt?_of_eq_nil {p : String} (h : Path.ofString p = []) : root.placeAt? p = none := by
  unfold placeAt?
  rw [h]

/-- A place holds what is read there. -/
theorem map_held_place? (v : Json) (p : Path) : (v.place? p).map Place.held = v.descend? p := by
  induction p generalizing v with
  | nil => rfl
  | cons segment rest ih =>
      simp only [place?, descend?]
      cases v.child? segment with
      | none => rfl
      | some c => simp only [Option.bind_some, Option.map_map, Function.comp_def, ← ih]

/-- Exchanging the value at a path is filling the place there. -/
theorem exchange?_eq_place? (v new : Json) (p : Path) :
    v.exchange? new p = (v.place? p).map fun place => place.fill new := by
  induction p generalizing v with
  | nil => rfl
  | cons segment rest ih =>
      simp only [place?, exchange?]
      cases v.child? segment with
      | none => rfl
      | some c => simp only [Option.bind_some, ih, Option.map_map, Function.comp_def]

/-- Assigning where a value is exchanges it and answers with what was there. -/
theorem assignChild?_of_child? (h : v.child? segment = some c) (new : Json) :
    v.assignChild? segment new = some (some c, v.replaceChild segment new) := by
  cases v with
  | object members =>
      have hget : Table.get? segment members = some c := h
      have hhas : Table.has segment members = true := by simp [Table.has, hget]
      simp only [assignChild?, replaceChild, hget, Table.insert, if_pos hhas]
  | array items =>
      obtain ⟨i, hi, hitem⟩ := Option.bind_eq_some_iff.mp h
      have hlt : i < items.length := (List.getElem?_eq_some_iff.mp hitem).1
      simp only [assignChild?, replaceChild, hi, Option.bind_some, if_pos hlt, hitem]
  | _ => cases h

/-- Assigning through parents to a place that is there fills it. -/
theorem assignThrough_of_place? {place : Place} {path last : String} {parents : Path}
    (h : v.place? (parents ++ [last]) = some place) (new : Json) :
    v.assignThrough path last new parents = .ok (some place.held, place.fill new) := by
  induction parents generalizing v place with
  | nil =>
      obtain ⟨c, hc, hplace⟩ := Option.bind_eq_some_iff.mp h
      cases hplace
      simp only [assignThrough, assignChild?_of_child? hc, id_eq]
  | cons parent rest ih =>
      obtain ⟨c, hc, hplace⟩ := Option.bind_eq_some_iff.mp h
      obtain ⟨below, hbelow, rfl⟩ := Option.map_eq_some_iff.mp hplace
      simp only [assignThrough, hc, ih hbelow]

/-- Writing at a place that there is answers what it held and fills it. -/
theorem assign_of_placeAt? {place : Place} {p : String} (h : root.placeAt? p = some place)
    (new : Json) : root.assign p new = .ok (some place.held, place.fill new) := by
  rcases List.eq_nil_or_concat (Path.ofString p) with hp | ⟨parents, last, hp⟩
  · rw [placeAt?_of_eq_nil hp] at h
    cases h
  · rw [List.concat_eq_append] at hp
    have hne : Path.ofString p ≠ [] := by simp [hp]
    rw [placeAt?_of_ne_nil hne, hp] at h
    rw [assign_eq hp]
    exact assignThrough_of_place? h new

-- ========================================================== putting back

/-- Putting back what is there changes nothing. -/
theorem replaceChild_self (h : v.child? segment = some c) : v.replaceChild segment c = v := by
  cases v with
  | object members =>
      have hget : Table.get? segment members = some c := h
      simp only [replaceChild, Table.replace_self hget]
  | array items =>
      obtain ⟨i, hi, hitem⟩ := Option.bind_eq_some_iff.mp h
      obtain ⟨hlt, rfl⟩ := List.getElem?_eq_some_iff.mp hitem
      simp only [replaceChild, hi, List.set_getElem_self]
  | _ => rfl

/-- A place filled with what it holds is the whole there was. -/
theorem fill_held_of_place? {place : Place} (h : v.place? p = some place) :
    place.fill place.held = v := by
  induction p generalizing v place with
  | nil =>
      cases h
      rfl
  | cons segment rest ih =>
      obtain ⟨c, hc, hplace⟩ := Option.bind_eq_some_iff.mp h
      obtain ⟨below, hbelow, rfl⟩ := Option.map_eq_some_iff.mp hplace
      simp only [ih hbelow, replaceChild_self hc]

-- ====================================================== at written paths

/-- An assignment that is done through parents is done however the path is written. -/
theorem assignThrough_congr {path path' last : String} {parents : Path}
    {done : Option Json × Json} (h : v.assignThrough path last new parents = .ok done) :
    v.assignThrough path' last new parents = .ok done := by
  induction parents generalizing v done with
  | nil =>
      unfold assignThrough at h ⊢
      cases hchild : v.assignChild? last new with
      | none =>
          rw [hchild] at h
          cases h
      | some done' =>
          rw [hchild] at h
          exact h
  | cons parent rest ih =>
      unfold assignThrough at h ⊢
      cases hchild : v.child? parent with
      | none =>
          rw [hchild] at h
          cases h
      | some c =>
          rw [hchild] at h
          cases hbelow : c.assignThrough path last new rest with
          | error e => simp [hbelow] at h
          | ok below =>
              simp only [hbelow] at h
              simp only [ih hbelow]
              exact h

section Written

variable {p q : String}

/-- What is read at a path is what its place holds. -/
theorem map_held_placeAt? (root : Json) (p : String) :
    (root.placeAt? p).map Place.held = root.get? p := by
  by_cases hp : Path.ofString p = []
  · rw [placeAt?_of_eq_nil hp, get?_of_eq_nil hp]
    rfl
  · rw [placeAt?_of_ne_nil hp, get?_of_ne_nil hp, map_held_place?]

/-- Exchanging a value fills its place. -/
theorem overwrite?_eq_placeAt? (root new : Json) (p : String) :
    root.overwrite? p new = (root.placeAt? p).map fun place => place.fill new := by
  unfold overwrite? placeAt?
  cases Path.ofString p with
  | nil => rfl
  | cons segment rest => exact exchange?_eq_place? root new (segment :: rest)

/-- Paths of the same segments are written alike. -/
theorem assign_congr (h : Path.ofString p = Path.ofString q) {done : Option Json × Json}
    (hdone : root.assign p new = .ok done) : root.assign q new = .ok done := by
  rcases List.eq_nil_or_concat (Path.ofString p) with hp | ⟨parents, last, hp⟩
  · unfold assign at hdone
    rw [hp] at hdone
    cases hdone
  · rw [List.concat_eq_append] at hp
    rw [assign_eq hp] at hdone
    rw [assign_eq (h.symm.trans hp)]
    exact assignThrough_congr hdone

/-- A path behind a path is followed from where that one ends. -/
theorem get?_append (hp : Path.ofString p ≠ []) (hq : Path.ofString q ≠ []) :
    root.get? (p ++ "." ++ q) = (root.get? p).bind fun c => c.get? q := by
  have hpq : Path.ofString (p ++ "." ++ q) ≠ [] := by
    rw [Path.ofString_append]
    exact List.append_ne_nil_of_left_ne_nil hp _
  rw [get?_of_ne_nil hpq, Path.ofString_append, descend?_append, get?_of_ne_nil hp]
  exact Option.bind_congr fun c _ => (get?_of_ne_nil hq).symm

/-- Putting back what is read in a place changes nothing. -/
theorem overwrite?_self (h : root.get? p = some c) : root.overwrite? p c = some root := by
  rw [← map_held_placeAt?] at h
  obtain ⟨place, hplace, rfl⟩ := Option.map_eq_some_iff.mp h
  have hp : Path.ofString p ≠ [] := by
    intro hp
    rw [placeAt?_of_eq_nil hp] at hplace
    cases hplace
  have hfill : place.fill place.held = root := by
    rw [placeAt?_of_ne_nil hp] at hplace
    exact fill_held_of_place? hplace
  rw [overwrite?_eq_placeAt?, hplace, Option.map_some, hfill]

end Written

/-- Reading, exchanging and assigning meet at one place. A place is found where a value is read
and holds that value; filling it is what exchanging does, and what assigning does there. Which
place that is depends on the segments the path writes and on nothing else, and a path put behind
another is followed from where the other ends. -/
theorem places_agree (root : Json) (p : String) :
    (root.placeAt? p).map Place.held = root.get? p
    ∧ (∀ v, root.overwrite? p v = (root.placeAt? p).map fun place => place.fill v)
    ∧ (∀ place v, root.placeAt? p = some place →
        root.assign p v = .ok (some place.held, place.fill v))
    ∧ (∀ q segments, Path.Writes p segments → Path.Writes q segments →
        root.placeAt? p = root.placeAt? q ∧ root.get? p = root.get? q
          ∧ ∀ v done, root.assign p v = .ok done ↔ root.assign q v = .ok done)
    ∧ ∀ q, (∃ c ∈ p.toList, c ≠ '.') → (∃ c ∈ q.toList, c ≠ '.') →
        root.get? (p ++ "." ++ q) = (root.get? p).bind fun c => c.get? q := by
  refine ⟨map_held_placeAt? root p, fun v => overwrite?_eq_placeAt? root v p,
    fun place v h => assign_of_placeAt? h v, ?_, ?_⟩
  · intro q segments hp hq
    have hsame : Path.ofString p = Path.ofString q :=
      (Path.writes_iff.mp hp).trans (Path.writes_iff.mp hq).symm
    refine ⟨?_, ?_, fun v done => ⟨assign_congr hsame, assign_congr hsame.symm⟩⟩
    · unfold placeAt?
      rw [hsame]
    · unfold get?
      rw [hsame]
  · intro q hp hq
    exact get?_append (Path.ofString_ne_nil_iff.mpr hp) (Path.ofString_ne_nil_iff.mpr hq)

/-- Surplus dots, a second spelling of a position, and a path behind a path. -/
theorem places_agree_on_list :
    let root := object [("list", array [null, object [("k", bool true)]])]
    (root.placeAt? "list.+1").isSome = true
      ∧ root.assign "list.+1" null
        = .ok (some (object [("k", bool true)]), object [("list", array [null, null])])
      ∧ Path.Writes "list.+1" ["list", "+1"] ∧ Path.Writes ".list..+1." ["list", "+1"]
      ∧ root.get? "list.+1" = root.get? ".list..+1."
      ∧ (∃ c ∈ "list.+1".toList, c ≠ '.') ∧ (∃ c ∈ "k.".toList, c ≠ '.')
      ∧ root.get? ("list.+1" ++ "." ++ "k.")
        = (root.get? "list.+1").bind fun c => c.get? "k." := by
  intro root
  obtain ⟨-, -, hassign, hsegments, happend⟩ := places_agree root "list.+1"
  have hwrites : Path.Writes "list.+1" ["list", "+1"] := Path.writes_iff.mpr rfl
  have hwrites' : Path.Writes ".list..+1." ["list", "+1"] := Path.writes_iff.mpr rfl
  have hfirst : ∃ c ∈ "list.+1".toList, c ≠ '.' := ⟨'l', by decide, by decide⟩
  have hsecond : ∃ c ∈ "k.".toList, c ≠ '.' := ⟨'k', by decide, by decide⟩
  exact ⟨rfl, hassign _ null rfl, hwrites, hwrites', (hsegments _ _ hwrites hwrites').2.1, hfirst,
    hsecond, happend _ hfirst hsecond⟩

end Json
end EventScript
