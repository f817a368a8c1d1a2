/-
When arguments that a schema accepts are read. A schema and a record describe the same
arguments twice, field by field and in the same order, and `Fills` tells how the two go
together: each field has a slot and a place in what the record builds, and whatever the field
accepts its reader takes. Where a reader is narrower than its field, the values between the
two are told by a relation, `Unread`, that is a parameter here.

One induction over `Fills` then tells of any such record that it reads what the schema
accepts unless one of those values is among the members, and that its error is theirs.
-/
import EventScript.Proofs.Program.Builtin
import EventScript.Proofs.Schema
import EventScript.Proofs.Store.Record

namespace EventScript

namespace Table

variable {α : Type} {t : Table α} {name : String} {value : α}

/-- Where every name stands once, what stands under a name is its value. -/
theorem get?_of_mem (h : t.keys.Nodup) (hmem : (name, value) ∈ t) : t.get? name = some value := by
  obtain ⟨before, after, rfl⟩ := List.append_of_mem hmem
  refine get?_eq_some_iff.mpr ⟨before, after, rfl, ?_⟩
  intro hbefore
  unfold keys at h hbefore
  rw [List.map_append] at h
  exact (List.nodup_append.mp h).2.2 name hbefore name List.mem_cons_self rfl

end Table

-- ========================================================= what is given

namespace InstructionSpec

variable {args : Option Json.Object} {o : Json.Object} {name : String} {v : Json}

/-- What is given are the arguments that are not null. -/
theorem mem_given : (name, v) ∈ given args ↔ (name, v) ∈ args.getD [] ∧ v ≠ .null := by
  unfold given
  rw [List.mem_filter]
  cases v <;> simp [Json.isNull]

/-- No name is given twice. -/
theorem nodup_given (h : ∀ o ∈ args, o.keys.Nodup) : Table.keys (given args) |>.Nodup := by
  have hall : Table.keys (args.getD []) |>.Nodup := by
    cases args with
    | none => exact List.nodup_nil
    | some o => exact h o rfl
  exact hall.sublist (List.filter_sublist.map Prod.fst)

/-- What is given under a name is its value, unless that is null. -/
theorem get?_given (h : o.keys.Nodup) :
    Table.get? name (given (some o)) = some v ↔ o.get? name = some v ∧ v ≠ .null := by
  constructor
  · intro hget
    obtain ⟨hmem, hnull⟩ := mem_given.mp (Table.mem_of_get? hget)
    exact ⟨Table.get?_of_mem h hmem, hnull⟩
  · rintro ⟨hget, hnull⟩
    have hnodup : (Table.keys (given (some o))).Nodup := by
      refine nodup_given ?_
      rintro _ ⟨⟩
      exact h
    exact Table.get?_of_mem hnodup (mem_given.mpr ⟨Table.mem_of_get? hget, hnull⟩)

/-- A null does not matter to a field. -/
theorem accepts_given {f : Schema.Field} (h : o.keys.Nodup) (haccepts : f.Accepts (o.get? f.name)) :
    f.Accepts (Table.get? f.name (given (some o))) where
  there hrequired := by
    obtain ⟨v, hv, hnull⟩ := haccepts.there hrequired
    exact ⟨v, (get?_given h).mpr ⟨hv, hnull⟩, hnull⟩
  kind v hv hnull := haccepts.kind v ((get?_given h).mp hv).1 hnull
  constraints v hv hnull := haccepts.constraints v ((get?_given h).mp hv).1 hnull

/-- What is given of arguments that pass a schema passes it: its names are declared, and the
fields accept it. -/
theorem given_accepted {schema : Schema} (h : ∀ o ∈ args, o.keys.Nodup)
    (hcheck : schema.check? args = none) :
    (∀ name ∈ Table.keys (given args), schema.Declares name)
      ∧ ∀ f ∈ schema.fields, f.Accepts (Table.get? f.name (given args)) := by
  have haccepts := Schema.check?_eq_none_iff.mp hcheck
  cases args with
  | none =>
      refine ⟨List.forall_mem_nil _, fun f hf => ?_⟩
      exact (Schema.Field.accepts_absent_iff (Or.inl rfl)).mpr (haccepts f hf)
  | some o =>
      have ho : o.keys.Nodup := h o rfl
      refine ⟨fun name hname => ?_, fun f hf => accepts_given ho (haccepts.2 f hf)⟩
      exact haccepts.1 name ((List.filter_sublist.map Prod.fst).subset hname)

end InstructionSpec

namespace Decode

variable {α β : Type}

-- ============================================================== success

/-- The reading ends with a value. -/
def Succeeds (x : Except Mismatch α) : Prop := ∃ a, x = .ok a

theorem Succeeds.pure (a : α) : Succeeds (Pure.pure a) := ⟨a, rfl⟩

theorem Succeeds.bind {x : Except Mismatch α} {f : α → Except Mismatch β} (hx : Succeeds x)
    (hf : ∀ a, Succeeds (f a)) : Succeeds (x >>= f) := by
  obtain ⟨a, rfl⟩ := hx
  exact hf a

theorem succeeds_map {x : Except Mismatch α} {f : α → β} : Succeeds (x.map f) ↔ Succeeds x := by
  cases x <;> simp [Succeeds, Except.map]

theorem succeeds_iff {x : Except Mismatch α} : Succeeds x ↔ ∀ m, x ≠ .error m := by
  cases x <;> simp [Succeeds]

/-- A sequence is read when each of its items is. -/
theorem succeeds_mapM {f : α → Except Mismatch β} {xs : List α} :
    Succeeds (xs.mapM f) ↔ ∀ x ∈ xs, Succeeds (f x) := by
  induction xs with
  | nil => exact iff_of_true ⟨[], rfl⟩ (List.forall_mem_nil _)
  | cons x xs ih =>
      rw [List.forall_mem_cons, ← ih, List.mapM_cons]
      cases f x with
      | error m => simp [Succeeds, Bind.bind, Except.bind]
      | ok b =>
          cases xs.mapM f <;> simp [Succeeds, Bind.bind, Except.bind, Pure.pure, Except.pure]

/-- The error of a sequence is that of its first item that is not read. -/
theorem mapM_eq_error {f : α → Except Mismatch β} {xs : List α} {m : Mismatch} :
    xs.mapM f = .error m ↔ ∃ before x after, xs = before ++ x :: after
      ∧ (∀ b ∈ before, Succeeds (f b)) ∧ f x = .error m := by
  constructor
  · intro h
    induction xs with
    | nil => cases h
    | cons x xs ih =>
        rw [List.mapM_cons] at h
        rcases Except.bind_eq_error.mp h with hx | ⟨b, hb, hrest⟩
        · exact ⟨[], x, xs, rfl, List.forall_mem_nil _, hx⟩
        · rcases Except.bind_eq_error.mp hrest with hxs | ⟨bs, -, hpure⟩
          · obtain ⟨before, y, after, rfl, hbefore, hy⟩ := ih hxs
            exact ⟨x :: before, y, after, rfl, List.forall_mem_cons.mpr ⟨⟨b, hb⟩, hbefore⟩, hy⟩
          · cases hpure
  · rintro ⟨before, x, after, rfl, hbefore, hx⟩
    induction before with
    | nil => rw [List.nil_append, List.mapM_cons, hx]; rfl
    | cons y before ih =>
        obtain ⟨⟨b, hb⟩, hrest⟩ := List.forall_mem_cons.mp hbefore
        rw [List.cons_append, List.mapM_cons, hb, Except.bind_eq_error]
        exact Or.inr ⟨b, rfl, Except.bind_eq_error.mpr (Or.inl (ih hrest))⟩

/-- A value that may be null is read as one that may not, unless it is null. -/
theorem orNull_of_ne {r : Reader α} {v : Json} (h : v ≠ .null) : orNull r v = (r v).map some := by
  cases v with
  | null => exact absurd rfl h
  | _ => rfl

/-- A name of a choice stands alone or above a null. -/
theorem succeeds_choice {options : List (String × α)} {v : Json} :
    Succeeds (choice options v)
      ↔ ∃ name ∈ options.map Prod.fst, v = .string name ∨ v = .object [(name, .null)] := by
  have hfind : ∀ name, (options.find? fun o => o.1 == name).isSome = true
      ↔ name ∈ options.map Prod.fst := by
    intro name
    simp
  cases v with
  | string s =>
      simp only [choice, Json.string.injEq, reduceCtorEq, or_false, exists_eq_right', ← hfind]
      cases options.find? fun o => o.1 == s <;> simp [Succeeds]
  | object members =>
      rcases members with _ | ⟨⟨name, content⟩, _ | ⟨second, rest⟩⟩
      · simp [choice, Succeeds]
      · have hright : (∃ n ∈ options.map Prod.fst, Json.object [(name, content)] = .string n
            ∨ Json.object [(name, content)] = .object [(n, .null)])
            ↔ (options.find? fun o => o.1 == name).isSome = true ∧ content = .null := by
          rw [hfind]
          constructor
          · rintro ⟨n, hn, h | h⟩ <;> cases h
            exact ⟨hn, rfl⟩
          · rintro ⟨hn, rfl⟩
            exact ⟨name, hn, Or.inr rfl⟩
        rw [hright]
        simp only [choice]
        cases options.find? fun o => o.1 == name with
        | none => simp [Succeeds, Bind.bind, Except.bind]
        | some o => cases content <;> simp [Succeeds, Bind.bind, Except.bind]
      · simp [choice, Succeeds]
  | _ => simp [choice, Succeeds]

-- ============================================================== records

/-- The slot has this name and says of a value what the reader says. -/
structure Slot.Tells (s : Slot) (name : String) (r : Reader α) : Prop where
  name : s.name = name
  check : ∀ v, v ≠ .null → ∀ m, s.check v = some m ↔ r v = .error m

variable {name : String} {r : Reader α}

/-- A slot says what its reader says. -/
theorem slot_tells : (slot name r).Tells name r where
  name := rfl
  check v _ m := by
    unfold slot
    dsimp only
    cases r v <;> simp

theorem spareSlot_tells : (spareSlot name r).Tells name r := by
  have htells : (slot name r).Tells name r := slot_tells
  exact ⟨rfl, htells.check⟩

/-- A value that counts is not null, so that a slot may allow null. -/
theorem slot_orNull_tells : (slot name (orNull r)).Tells name r where
  name := rfl
  check v hv m := by
    have htells : (slot name (orNull r)).Tells name (orNull r) := slot_tells
    rw [htells.check v hv, orNull_of_ne hv, Except.map_eq_error]

/-- The reader takes what the field accepts, but for the values told. -/
def Fits (unread : String → Json → Mismatch → Prop) (f : Schema.Field) (r : Reader α) : Prop :=
  ∀ v, v ≠ .null → f.Accepts (some v) → ∀ m, r v = .error m ↔ unread f.name v m

/-- A part of what a record builds, which reads one field: it has to be there, or it may be
missing, or something stands for it when it is. -/
inductive Part (f : Schema.Field) (r : Reader α) :
    {γ : Type} → (Json.Object → Except Mismatch γ) → Prop
  | need (required : f.required = true) : Part f r fun o => Decode.need o f.name r
  | may : Part f r fun o => Decode.may o f.name r
  | orElse (absent : α) : Part f r fun o => Decode.orElse o f.name r absent

/-- A record with these slots and this way to build it mirrors the fields: each has its slot,
its reader and its part in what is built, in order. -/
inductive Fills (unread : String → Json → Mismatch → Prop) :
    List Schema.Field → List Slot → (Json.Object → Except Mismatch β) → Prop
  | done (b : β) : Fills unread [] [] fun _ => Pure.pure b
  | field {α γ : Type} [Nonempty γ] {f : Schema.Field} {s : Slot} {r : Reader α}
      {part : Json.Object → Except Mismatch γ} {fields : List Schema.Field} {slots : List Slot}
      {build : γ → Json.Object → Except Mismatch β} (fits : Fits unread f r)
      (placed : Part f r part) (tells : s.Tells f.name r)
      (rest : ∀ a, Fills unread fields slots (build a)) :
      Fills unread (f :: fields) (s :: slots) fun o => part o >>= fun a => build a o

/-- A part is read when the field accepts what there is and the reader takes it. -/
theorem Part.succeeds {γ : Type} {f : Schema.Field} {r : Reader α}
    {part : Json.Object → Except Mismatch γ} (h : Part f r part) {o : Json.Object}
    (haccepts : f.Accepts (o.get? f.name)) (hnull : o.get? f.name ≠ some .null)
    (hread : ∀ v, o.get? f.name = some v → Succeeds (r v)) : Succeeds (part o) := by
  cases h with
  | need required =>
      obtain ⟨v, hv, -⟩ := haccepts.there required
      show Succeeds (Decode.need o f.name r)
      rw [need_of_get? hv]
      exact hread v hv
  | may =>
      show Succeeds (Decode.may o f.name r)
      unfold Decode.may
      cases hv : o.get? f.name with
      | none => exact ⟨none, rfl⟩
      | some v =>
          have hne : v ≠ .null := fun h => hnull (h ▸ hv)
          show Succeeds (orNull r v)
          rw [orNull_of_ne hne]
          exact succeeds_map.mpr (hread v hv)
  | orElse absent =>
      show Succeeds (Decode.orElse o f.name r absent)
      unfold Decode.orElse
      cases hv : o.get? f.name with
      | none => exact ⟨absent, rfl⟩
      | some v => exact hread v hv

/-- A record is read where no slot finds anything wrong and it can be built. -/
theorem succeeds_record {title : String} {slots : List Slot} {strict : Bool}
    {build : Json.Object → Except Mismatch β} {o : Json.Object} :
    Succeeds (record title slots build strict (.object o))
      ↔ firstMismatch? strict slots o = none ∧ Succeeds (build o) := by
  unfold record
  dsimp only
  cases firstMismatch? strict slots o <;> simp [Succeeds]

namespace Fills

variable {unread : String → Json → Mismatch → Prop} {fields : List Schema.Field}
  {slots : List Slot} {build : Json.Object → Except Mismatch β} {o : Json.Object}

/-- Each slot is that of a field, and says of what the field accepts whether it is read. -/
theorem of_slot (h : Fills unread fields slots build) : ∀ s ∈ slots, ∃ f ∈ fields,
    s.name = f.name
      ∧ ∀ v, v ≠ .null → f.Accepts (some v) → ∀ m, s.check v = some m ↔ unread f.name v m := by
  induction h with
  | done b => exact List.forall_mem_nil _
  | @field _ γ hγ f _ _ _ _ _ _ fits _ tells _ ih =>
      obtain ⟨a⟩ := hγ
      refine List.forall_mem_cons.mpr ⟨⟨f, List.mem_cons_self, tells.name, ?_⟩, fun s hs => ?_⟩
      · intro v hv haccepts m
        exact (tells.check v hv m).trans (fits v hv haccepts m)
      · obtain ⟨g, hg, hs⟩ := ih a s hs
        exact ⟨g, List.mem_cons_of_mem f hg, hs⟩

/-- Each field has a slot. -/
theorem exists_slot (h : Fills unread fields slots build) :
    ∀ f ∈ fields, ∃ s ∈ slots, s.name = f.name := by
  induction h with
  | done b => exact List.forall_mem_nil _
  | @field _ γ hγ _ s _ _ _ _ _ _ _ tells _ ih =>
      obtain ⟨a⟩ := hγ
      refine List.forall_mem_cons.mpr ⟨⟨s, List.mem_cons_self, tells.name⟩, fun f hf => ?_⟩
      obtain ⟨t, ht, hname⟩ := ih a f hf
      exact ⟨t, List.mem_cons_of_mem s ht, hname⟩

/-- What the fields accept is built, unless it holds a value that is not read. -/
theorem succeeds (h : Fills unread fields slots build)
    (haccepts : ∀ f ∈ fields, f.Accepts (o.get? f.name)) (hnull : ∀ name, o.get? name ≠ some .null)
    (hread : ∀ name v m, o.get? name = some v → ¬ unread name v m) : Succeeds (build o) := by
  induction h with
  | done b => exact .pure b
  | @field _ _ _ f _ r _ _ _ _ fits placed _ _ ih =>
      obtain ⟨hfirst, hrest⟩ := List.forall_mem_cons.mp haccepts
      refine (placed.succeeds hfirst (hnull _) ?_).bind fun a => ih a hrest
      intro v hv
      have hne : v ≠ .null := fun h => hnull _ (h ▸ hv)
      refine succeeds_iff.mpr fun m hm => ?_
      exact hread _ v m hv ((fits v hne (hv ▸ hfirst) m).mp hm)

variable {title : String} {strict : Bool} {schema : Schema}

/-- Of a member that is declared and accepted the record finds the slot, and the slot says
whether its value is read. -/
theorem find_slot (h : Fills unread schema.fields slots build) {name : String} {v : Json}
    (hdeclared : schema.Declares name) (hv : v ≠ .null)
    (haccepts : ∀ f ∈ schema.fields, f.name = name → f.Accepts (some v)) :
    ∃ s, (slots.find? fun s => s.name == name) = some s
      ∧ ∀ m, s.check v = some m ↔ unread name v m := by
  obtain ⟨f, hf, rfl⟩ := hdeclared
  obtain ⟨s, hs, hname⟩ := h.exists_slot f hf
  have hsome : (slots.find? fun s => s.name == f.name).isSome = true :=
    List.find?_isSome.mpr ⟨s, hs, by simpa using hname⟩
  obtain ⟨t, ht⟩ := Option.isSome_iff_exists.mp hsome
  have htname : t.name = f.name := by simpa using List.find?_some ht
  obtain ⟨g, hg, hgname, hcheck⟩ := h.of_slot t (List.mem_of_find?_eq_some ht)
  have hgf : g.name = f.name := hgname.symm.trans htname
  refine ⟨t, ht, fun m => ?_⟩
  rw [← hgf]
  exact hcheck v hv (haccepts g hg hgf) m

/-- A record that mirrors a schema reads members that the schema accepts, unless the value of one
is told not to be read, and then its error is that of such a value. -/
theorem record_object (h : Fills unread schema.fields slots build) (hnodup : o.keys.Nodup)
    (hnull : ∀ name v, (name, v) ∈ o → v ≠ .null)
    (hdeclared : ∀ name ∈ o.keys, schema.Declares name)
    (haccepts : ∀ f ∈ schema.fields, f.Accepts (o.get? f.name)) :
    (Succeeds (record title slots build strict (.object o))
        ↔ ∀ name v m, (name, v) ∈ o → ¬ unread name v m)
      ∧ ∀ m, Decode.record title slots build strict (.object o) = .error m →
        ∃ name v, (name, v) ∈ o ∧ unread name v m := by
  -- the schema has let each member through, so its slot alone can still refuse it
  have hslot : ∀ name v, (name, v) ∈ o → ∃ s, (slots.find? fun s => s.name == name) = some s
      ∧ ∀ m, s.check v = some m ↔ unread name v m := by
    intro name v he
    have hname : name ∈ o.keys := List.mem_map_of_mem (f := Prod.fst) he
    refine h.find_slot (hdeclared name hname) (hnull name v he) ?_
    rintro f hf rfl
    have hf := haccepts f hf
    rw [Table.get?_of_mem hnodup he] at hf
    exact hf
  unfold Decode.record
  dsimp only
  cases hfirst : firstMismatch? strict slots o with
  | some m =>
      obtain ⟨⟨name, v⟩, he, hm⟩ := List.exists_of_findSome?_eq_some hfirst
      obtain ⟨s, hs, hcheck⟩ := hslot name v he
      have hunread : unread name v m := by
        dsimp only at hm
        rw [hs] at hm
        exact (hcheck m).mp hm
      constructor
      · exact iff_of_false (by simp [Succeeds]) fun hno => hno name v m he hunread
      · rintro m' ⟨⟩
        exact ⟨name, v, he, hunread⟩
  | none =>
      have hno : ∀ name v m, (name, v) ∈ o → ¬ unread name v m := by
        intro name v m he hunread
        obtain ⟨s, hs, hcheck⟩ := hslot name v he
        have hnone : s.check v = none := by
          have hmember := List.findSome?_eq_none_iff.mp hfirst (name, v) he
          dsimp only at hmember
          rw [hs] at hmember
          exact hmember
        rw [(hcheck m).mpr hunread] at hnone
        cases hnone
      have hbuilt : Succeeds (build o) := by
        refine h.succeeds haccepts (fun name hget => ?_) fun name v m hget => ?_
        · exact hnull name .null (Table.mem_of_get? hget) rfl
        · exact hno name v m (Table.mem_of_get? hget)
      exact ⟨iff_of_true hbuilt hno, fun m hm => absurd hm (succeeds_iff.mp hbuilt m)⟩

end Fills

/-- What is given of arguments that the schema accepts is read, unless it holds a value that is
told not to be read; and then the error is that of such a value. -/
def Agrees (unread : String → Json → Mismatch → Prop) (schema : Schema) (r : Reader α) : Prop :=
  ∀ args : Option Json.Object, (∀ o ∈ args, o.keys.Nodup) → schema.check? args = none →
    (Succeeds (r (.object (InstructionSpec.given args)))
        ↔ ∀ name v m, (name, v) ∈ InstructionSpec.given args → ¬ unread name v m)
      ∧ ∀ m, r (.object (InstructionSpec.given args)) = .error m →
        ∃ name v, (name, v) ∈ InstructionSpec.given args ∧ unread name v m

variable {unread : String → Json → Mismatch → Prop} {schema : Schema}

/-- A reader that mirrors a schema agrees with it. -/
theorem Fills.agrees {slots : List Slot} {build : Json.Object → Except Mismatch β}
    {title : String} {strict : Bool} (h : Fills unread schema.fields slots build) :
    Agrees unread schema (record title slots build strict) := by
  intro args hargs hcheck
  obtain ⟨hdeclared, haccepts⟩ := InstructionSpec.given_accepted hargs hcheck
  exact h.record_object (InstructionSpec.nodup_given hargs)
    (fun _ _ he => (InstructionSpec.mem_given.mp he).2) hdeclared haccepts

/-- A reader goes on agreeing when something is made of what it reads. -/
theorem Agrees.map {r : Reader α} (h : Agrees unread schema r) (f : α → β) :
    Agrees unread schema fun v => (r v).map f := by
  intro args hargs hcheck
  obtain ⟨hok, herror⟩ := h args hargs hcheck
  exact ⟨succeeds_map.trans hok, fun m hm => herror m (Except.map_eq_error.mp hm)⟩

end Decode
end EventScript
