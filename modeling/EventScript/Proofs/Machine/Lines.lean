/-
The events of a run, line by line. The message of an event shows words of the program, what the
queue and the network answered, and values of variables. The values are written as JSON, in one
line, by every instruction but `log`, whose template shows a text as it is. So with words and ids
that are one line each, all that can break a line is a note, and there the data has its way: it
may go on below with any other events.
-/
import EventScript.Proofs.Event
import EventScript.Proofs.Machine.Ownership
import EventScript.Proofs.Template

namespace EventScript

open Instruction
open Text (OneLine cutLines oneLine_append)

-- ============================================================ what is told

/-- The words of the program that are shown in the events of an action. -/
def Action.words : Action → List String
  | debug i => i.paths
  | queue i => [i.queue, i.jobName]
  | webhook i => [i.url]
  | spreadsheet i => [i.spreadsheetId, i.range]
  | _ => []

/-- The words of the program that are shown in the events of a step. -/
def Step.words : Step → List String
  | .action _ a => a.words
  | .branch .. => []

/-- The ids by which the queue knows its jobs are one line each. -/
def JobQueue.IdsOneLine (q : JobQueue) : Prop :=
  ∀ earlier job id, q.answer earlier job = .ok id → OneLine id

/-- A job is answered as its queue answers, and the queue goes on answering so. -/
theorem JobQueue.offer_answer (q : JobQueue) (job : Job) :
    (q.offer job).1 = q.answer q.offered job ∧ (q.offer job).2.answer = q.answer := by
  unfold offer
  dsimp only
  cases q.answer q.offered job <;> exact ⟨rfl, rfl⟩

/-- The event is of the action's category, and unless it is a note it is one line when the words
and the id it shows are. -/
structure Action.Tells (a : Action) (q : JobQueue) (e : Event) : Prop where
  category : a.category? = some e.category
  message : (∀ s ∈ a.words, OneLine s) → q.IdsOneLine → e.category ≠ "log" → OneLine e.message

/-- The category of what an action tells is one line, being a name of the language's own. -/
theorem Action.Tells.oneLine_category {a : Action} {q : JobQueue} {e : Event} (h : a.Tells q e) :
    OneLine e.category := by
  have hcategory := h.category
  cases a with
  | debug i => exact Option.some.inj hcategory ▸ by decide
  | log i => exact Option.some.inj hcategory ▸ by decide
  | queue i => exact Option.some.inj hcategory ▸ by decide
  | webhook i => exact Option.some.inj hcategory ▸ by decide
  | spreadsheet i => exact Option.some.inj hcategory ▸ by decide
  | _ => cases hcategory

namespace Machine

/-- From one machine to the next only such events were recorded. -/
def Adds (P : Event → Prop) (m k : Machine) : Prop :=
  ∃ told, k.events = m.events ++ told ∧ ∀ e ∈ told, P e

variable {P : Event → Prop} {m k : Machine}

theorem adds_nothing (h : k.events = m.events) : Adds P m k :=
  ⟨[], by rw [h, List.append_nil], List.forall_mem_nil _⟩

/-- An event that is recorded behind them, with a record in the log. -/
theorem Adds.tell (h : Adds P m k) (record : Log.Record) {category message : String}
    (hP : P ⟨category, message, k.world.now⟩) :
    Adds P m ((k.log record).emit category message) := by
  obtain ⟨told, hevents, htold⟩ := h
  refine ⟨told ++ [⟨category, message, k.world.now⟩], ?_, ?_⟩
  · rw [← List.append_assoc, ← hevents]
    rfl
  · exact List.forall_mem_append.mpr ⟨htold, List.forall_mem_singleton.mpr hP⟩

-- ====================================================== the operations

/-- A report tells only what it may. -/
theorem inspect_tells (i : VariableReport) (q : JobQueue) :
    Adds (Action.Tells (.debug i) q) m (m.inspect i) := by
  unfold inspect
  refine List.foldlRecOn (motive := Adds (Action.Tells (.debug i) q) m) _ _ (adds_nothing rfl) ?_
  intro k h text htext
  obtain ⟨path, hpath, rfl⟩ := List.mem_map.mp htext
  refine h.tell _ ⟨rfl, ?_⟩
  intro hwords _ _
  have hequals : OneLine " = " := by decide
  show OneLine (path ++ " = " ++ Json.compact _)
  simp only [oneLine_append, hwords path hpath, hequals, Json.oneLine_compact, and_self]

theorem note_tells (i : LogNote) (q : JobQueue) :
    Adds (Action.Tells (.log i) q) m (m.note i) :=
  (adds_nothing rfl).tell _ ⟨rfl, fun _ _ h => absurd rfl h⟩

theorem enqueue_tells (i : JobOrder) :
    Adds (Action.Tells (.queue i) m.world.queue) m (m.enqueue i) := by
  refine ⟨_, (enqueue_asks i).events, ?_⟩
  intro e he
  obtain ⟨message, hmessage, rfl⟩ := List.mem_map.mp he
  refine ⟨rfl, ?_⟩
  intro hwords hids _
  rw [(m.world.queue.offer_answer (i.job m.globals)).1] at hmessage
  cases hanswer : m.world.queue.answer m.world.queue.offered (i.job m.globals) with
  | error refusal =>
      rw [hanswer] at hmessage
      cases hmessage
  | ok id =>
      rw [hanswer] at hmessage
      rw [List.mem_singleton.mp hmessage]
      have hqueue := hwords i.queue (by simp [Action.words])
      have hname := hwords i.jobName (by simp [Action.words])
      have hfixed : OneLine ":" ∧ OneLine " -> " := by decide
      show OneLine (i.queue ++ ":" ++ i.jobName ++ " -> " ++ id)
      simp only [oneLine_append, hfixed, hqueue, hname, hids _ _ _ hanswer, and_self]

/-- A request by itself tells nothing. -/
theorem attempt_events (request : Except Http.Request.Fault Http.Request) :
    (m.attempt request).2.events = m.events := by
  rw [(attempt_asks request).events, List.append_nil]

/-- A webhook tells only what it may. -/
theorem notify_tells (i : Webhook) (q : JobQueue) :
    Adds (Action.Tells (.webhook i) q) m (m.notify i) := by
  have hline : ∀ rest, OneLine rest → (∀ s ∈ [i.url], OneLine s) → OneLine (i.line ++ rest) := by
    intro rest hrest hwords
    have hmethod : OneLine i.method.name ∧ OneLine " " := by
      cases i.method <;> decide
    show OneLine (i.method.name ++ " " ++ i.url ++ rest)
    simp only [oneLine_append, hmethod, hwords i.url (List.mem_singleton_self _), hrest, and_self]
  unfold notify
  cases i.payload? m.globals with
  | none => exact adds_nothing rfl
  | some payload =>
      have hafter := attempt_events (m := m) (i.request payload)
      revert hafter
      dsimp only
      rcases m.attempt (i.request payload) with ⟨answer, after⟩
      intro hafter
      cases answer with
      | ok code =>
          refine (adds_nothing hafter).tell _ ⟨rfl, fun hwords _ _ => ?_⟩
          rw [String.append_assoc]
          refine hline _ ?_ hwords
          exact oneLine_append.mpr ⟨by decide, Text.oneLine_nat code⟩
      | error failure =>
          refine (adds_nothing hafter).tell _ ⟨rfl, fun hwords _ _ => ?_⟩
          exact hline _ (by decide) hwords

/-- A row tells only what it may. -/
theorem appendRow_tells (i : SheetRow) (q : JobQueue) :
    Adds (Action.Tells (.spreadsheet i) q) m (m.appendRow i) := by
  unfold appendRow
  dsimp only
  cases i.appendUrl? m.settings.sheetsBase with
  | none => exact adds_nothing rfl
  | some url =>
      have hafter := attempt_events (m := m) (i.request m.globals url)
      revert hafter
      dsimp only
      rcases m.attempt (i.request m.globals url) with ⟨answer, after⟩
      intro hafter
      cases answer with
      | error failure => exact adds_nothing hafter
      | ok code =>
          dsimp only
          cases isSuccess code with
          | false => exact adds_nothing hafter
          | true =>
              refine (adds_nothing hafter).tell _ ⟨rfl, fun hwords _ _ => ?_⟩
              have hid := hwords i.spreadsheetId (by simp [Action.words])
              have hrange := hwords i.range (by simp [Action.words])
              have hfixed : OneLine "appended " ∧ OneLine " cells to " ∧ OneLine "!" := by decide
              simp only [oneLine_append, hfixed, Text.oneLine_nat, hid, hrange, and_self]

end Machine

-- ============================================================== the runs

/-- A built-in action adds events of its own only. -/
theorem Action.perform_tells {a : Action} (hb : a.isBuiltin = true) (m : Machine) :
    m.Adds (a.Tells m.world.queue) (a.perform m).1 := by
  cases a with
  | debug i => exact Machine.inspect_tells i _
  | log i => exact Machine.note_tells i _
  | queue i => exact Machine.enqueue_tells i
  | webhook i => exact Machine.notify_tells i _
  | spreadsheet i => exact Machine.appendRow_tells i _
  | hook run => cases hb
  | _ => exact Machine.adds_nothing rfl

/-- What is recorded by a built-in step is told by its action. -/
theorem Execution.told_of_mem_records {x : Execution} (hb : x.step.isBuiltin = true) {e : Event}
    (he : e ∈ x.records) :
    ∃ call a, x.step = .action call a ∧ a.Tells x.machine.world.queue e := by
  cases hx : x.step with
  | action call a =>
      rw [hx] at hb
      obtain ⟨told, hevents, htold⟩ := a.perform_tells hb x.machine
      rw [Execution.records_eq hx hevents] at he
      exact ⟨call, a, rfl, htold e he⟩
  | branch call condition zero one =>
      unfold Execution.records at he
      rw [Execution.leaves_branch hx] at he
      exact absurd (List.drop_length ▸ he) List.not_mem_nil

/-- What is executed does not change how the queue answers. -/
theorem Execution.leaves_answer (x : Execution) :
    x.leaves.world.queue.answer = x.machine.deeds.world.queue.answer := by
  cases hx : x.step with
  | branch call condition zero one => rw [Execution.leaves_branch hx]
  | action call a =>
      obtain ⟨told, hasked⟩ := a.perform_asks x.machine
      rw [Execution.leaves_action hx]
      show (a.perform x.machine).1.world.queue.answer = x.machine.world.queue.answer
      rw [hasked.queue]
      cases a.job? x.machine.globals with
      | none => rfl
      | some job => exact (x.machine.world.queue.offer_answer job).2

namespace Machine

/-- Every event of a run was there before, or one of the steps that are executed records it. -/
theorem mem_execute_events {m : Machine} {event : Option Json} {e : Event}
    (he : e ∈ (m.execute event).2.events) :
    e ∈ m.events ∨ ∃ x ∈ m.executions event, e ∈ x.records := by
  obtain ⟨fx, -, hevents, hlead, -⟩ := m.executions_lead event
  have hall := hlead.collect (f := Effects.events) fun x => x.leaves_adds.2.2
  have hmem : e ∈ fx.events ++ (m.executions event).flatMap Execution.records := hall ▸ he
  rw [hevents] at hmem
  exact (List.mem_append.mp hmem).imp_right List.mem_flatMap.mp

/-- Throughout a run the queue answers in its own way. -/
theorem executions_answer {m : Machine} {event : Option Json} {x : Execution}
    (hx : x ∈ m.executions event) : x.machine.world.queue.answer = m.world.queue.answer := by
  obtain ⟨fx, hworld, -, hlead, -⟩ := m.executions_lead event
  obtain ⟨before, after, hsplit⟩ := List.append_of_mem hx
  rw [hsplit] at hlead
  have hkept := hlead.until_begin.keeps (f := fun fx => fx.world.queue.answer)
    Execution.leaves_answer
  rw [hworld] at hkept
  exact hkept

end Machine

/-- Every event that a compiled program adds is told by one of its actions. -/
theorem Program.told_of_mem_events {limit : Nat} {d : Document} {p : Program}
    (hcompile : compile (.builtin limit) d = .ok p) {m : Machine} (hp : m.program = some p)
    {event : Option Json} {e : Event} (he : e ∈ (m.execute event).2.events) :
    e ∈ m.events ∨ ∃ o ∈ p.listing, ∃ call a, o.step = .action call a
      ∧ a.Tells m.world.queue e := by
  refine (Machine.mem_execute_events he).imp_right ?_
  rintro ⟨x, hx, he⟩
  obtain ⟨c, hreal⟩ := executions_realize hcompile hp event x hx
  obtain ⟨call, a, hstep, htold⟩ := Execution.told_of_mem_records hreal.isBuiltin he
  have hlisted := (Machine.executions_sublist_listing hp event).subset
    (List.mem_map_of_mem (f := Execution.occurrence) hx)
  refine ⟨x.occurrence, hlisted, call, a, hstep, htold.category, ?_⟩
  intro hwords hids
  refine htold.message hwords ?_
  unfold JobQueue.IdsOneLine
  rw [Machine.executions_answer hx]
  exact hids

-- =============================================================== a note

/-- One note, of what the event says under `note`. -/
def Document.passingOn : Document :=
  { version := "1"
    program := [⟨LogNote.name, some [("message", .string "{{ event.note }}")]⟩] }

/-- The program it is compiled to. -/
def Program.passingOn : Program :=
  ⟨[.action ⟨LogNote.name, some [("message", .string "{{ event.note }}")]⟩
    (.log ⟨"{{ event.note }}", .info⟩)]⟩

/-- The document compiles to the program under every limit. -/
theorem Program.compile_passingOn (limit : Nat) :
    compile (.builtin limit) Document.passingOn = .ok passingOn := rfl

/-- The variables of its run: the cast, and an event that says `note`. -/
def Program.passingOnGlobals (cast : Cast) (note : String) : Globals :=
  ⟨[("cast", cast.toJson), ("event", .object [("note", .string note)])]⟩

/-- The placeholder that its message consists of. -/
def Program.passingOnPlace : Template.Placeholder :=
  ⟨[' '], "event.note".toList, [' '], List.all_eq_true.mp rfl, by decide,
    List.all_eq_true.mp rfl, List.all_eq_true.mp rfl⟩

/-- The text of the event is the message of the note, whatever it is. -/
theorem Program.passingOn_events (m : Machine) (cast : Cast) (note : String) :
    ((m.load passingOn cast).execute (some (.object [("note", .string note)]))).2.events
      = [⟨"log", note, m.world.now⟩] := by
  have hleft : Template.Leftmost "{{ event.note }}" "" passingOnPlace "" :=
    Template.leftmost_iff_clear.mpr ⟨rfl, Template.clear_nil _⟩
  have hplain : Template.Plain "" := Template.plain_iff_clear.mpr (Template.clear_nil _)
  have hkey : passingOnPlace.key = "event.note" := String.ofList_toList
  have hfound : (passingOnGlobals cast note).getPath? "event.note" = some (.string note) := rfl
  have hshown : Template.shown (passingOnGlobals cast note).getPath? passingOnPlace = note := by
    unfold Template.shown Template.display
    rw [hkey, hfound]
    rfl
  have htext : Template.render (passingOnGlobals cast note).getPath? "{{ event.note }}" = note := by
    rw [Template.render_of_leftmost _ hleft, Template.render_of_plain _ hplain, hshown,
      String.append_empty, String.empty_append]
  show [(⟨"log", Template.render (passingOnGlobals cast note).getPath? "{{ event.note }}",
    m.world.now⟩ : Event)] = _
  rw [htext]

-- ============================================================ the lines

namespace Event

/-- As objects events are printed one on a line, whatever they hold. For reading they are when
the category and the message of each are one line. The categories of a compiled program always
are, so in its runs it is up to the messages; and of these only a note can be more than one
line, as far as the words of the program and the ids of the queue are one line each. A note shows
what the event says, and so what the event says can have any other events printed below. -/
theorem printed_line_by_line (colours : Bool) (format : OutputFormat) :
    (∀ e : Event, OneLine (e.render colours format)
      ↔ format = .json ∨ OneLine e.category ∧ OneLine e.message)
    ∧ (∀ events : List Event,
      cutLines (printed colours format events) = events.map (render colours format)
        ↔ format = .json ∨ ∀ e ∈ events, OneLine e.category ∧ OneLine e.message)
    ∧ (∀ limit d p, Program.compile (.builtin limit) d = .ok p → ∀ (m : Machine) cast event,
      let events := ((m.load p cast).execute event).2.events
      (cutLines (printed colours format events) = events.map (render colours format)
        ↔ format = .json ∨ ∀ e ∈ events, OneLine e.message)
      ∧ ((∀ o ∈ p.listing, ∀ s ∈ o.step.words, OneLine s) → m.world.queue.IdsOneLine →
        ∀ e ∈ events, ¬ OneLine e.message → e.category = "log"))
    ∧ ∃ p, (∀ limit, Program.compile (.builtin limit) .passingOn = .ok p)
      ∧ ∀ (m : Machine) cast message others, ∃ event,
        printed colours .pretty ((m.load p cast).execute (some event)).2.events
          = printed colours .pretty (⟨"log", message, m.world.now⟩ :: others) := by
  refine ⟨fun _ => oneLine_render_iff, fun _ => cutLines_printed_iff, ?_, ?_⟩
  · intro limit d p hcompile m cast event events
    have htold : ∀ e ∈ events, ∃ o ∈ p.listing, ∃ call a, o.step = .action call a
        ∧ a.Tells m.world.queue e := by
      intro e he
      exact (Program.told_of_mem_events hcompile (m := m.load p cast) rfl he).resolve_left
        List.not_mem_nil
    constructor
    · rw [cutLines_printed_iff]
      refine or_congr_right (forall₂_congr fun e he => and_iff_right ?_)
      obtain ⟨_, -, _, _, -, h⟩ := htold e he
      exact h.oneLine_category
    · intro hwords hids e he hmessage
      obtain ⟨o, ho, call, a, hstep, h⟩ := htold e he
      have hshown : ∀ s ∈ a.words, OneLine s := by
        have hlisted := hwords o ho
        rw [hstep] at hlisted
        exact hlisted
      by_cases hlog : e.category = "log"
      · exact hlog
      · exact absurd (h.message hshown hids hlog) hmessage
  · refine ⟨.passingOn, Program.compile_passingOn, ?_⟩
    intro m cast message others
    refine ⟨.object [("note", .string (goingOn colours message others))], ?_⟩
    rw [Program.passingOn_events]
    exact printed_goingOn ⟨"log", message, m.world.now⟩ others

/-- A report of what the event says is one line, though the text in it is two. -/
theorem printed_line_by_line_of_report :
    let report : Call := ⟨VariableReport.name,
      some [("variablesToDebug", .array [.string "event.note"])]⟩
    ∃ p, Program.compile (.builtin 1) { version := "1", program := [report] } = .ok p ∧
      let events := (((Machine.new {} {}).load p { id := "1" }).execute
        (some (.object [("note", .string "paid\nrefunded")]))).2.events
      events = [⟨"debug", "event.note = \"paid\\nrefunded\"", .epoch⟩]
        ∧ (∀ o ∈ p.listing, ∀ s ∈ o.step.words, OneLine s) ∧ JobQueue.inMemory.IdsOneLine
        ∧ cutLines (printed true .pretty events) = events.map (render true .pretty) := by
  intro report
  refine ⟨_, rfl, ?_⟩
  intro events
  have hevents : events = [⟨"debug", "event.note = \"paid\\nrefunded\"", .epoch⟩] := rfl
  have hwords : ∀ s ∈ ["event.note"], OneLine s := List.forall_mem_singleton.mpr (by decide)
  have hids : JobQueue.inMemory.IdsOneLine := by
    rintro earlier job id hanswer
    cases hanswer
    exact Text.oneLine_nat _
  obtain ⟨-, -, hruns, -⟩ := printed_line_by_line true .pretty
  obtain ⟨hlines, hnotes⟩ := hruns 1 { version := "1", program := [report] } _ rfl
    (Machine.new {} {}) { id := "1" } (some (.object [("note", .string "paid\nrefunded")]))
  refine ⟨hevents, List.forall_mem_singleton.mpr hwords, hids, hlines.mpr (Or.inr ?_)⟩
  intro e he
  by_cases hline : OneLine e.message
  · exact hline
  · have hlog := hnotes (List.forall_mem_singleton.mpr hwords) hids e he hline
    have hdebug : e = ⟨"debug", "event.note = \"paid\\nrefunded\"", .epoch⟩ :=
      List.mem_singleton.mp (hevents ▸ he)
    rw [hdebug] at hlog
    exact absurd hlog (by decide)

/-- A run with one note is printed as two lines, the second of which nobody has recorded. -/
theorem note_forges_line :
    let note := "paid\n00:00:01 [LOG] refunded"
    let events := (((Machine.new {} {}).load .passingOn { id := "1" }).execute
      (some (.object [("note", .string note)]))).2.events
    events = [⟨"log", note, .epoch⟩] ∧ (∀ e ∈ events, ¬ OneLine (e.render false .pretty))
      ∧ cutLines (printed false .pretty events)
        = ["00:00:00 [LOG] paid", "00:00:01 [LOG] refunded"]
      ∧ printed false .pretty events
        = printed false .pretty [⟨"log", "paid", .epoch⟩, ⟨"log", "refunded", ⟨1, 0⟩⟩] := by
  intro note events
  have hevents : events = [⟨"log", note, .epoch⟩] := Program.passingOn_events _ _ note
  rw [hevents]
  refine ⟨rfl, List.forall_mem_singleton.mpr (by decide), by decide, by decide⟩

end Event
end EventScript
