/-
The life of a machine between its operations. What may be done to it depends on two things
alone, whether a program was ever loaded and whether it has been run since: an idle machine
with a program runs it, and every other one answers an error and stays as it is, whatever
flags were set by hand in between. A run always comes to one of the three ends, and the end
follows from the error and the flag that the walk leaves behind, so no machine is found
running. A load forgets all of this.

A past is split here at its last load; each operation behind it keeps the program, and only
a run changes the status. Everything else is read off the end of a run.
-/
import EventScript.Proofs.Machine.Operation
import EventScript.Proofs.Machine.Composition

namespace EventScript.Machine

namespace Operation

/-- Whether the operation loads a program. -/
def isLoad : Operation → Bool
  | load _ _ => true
  | _ => false

/-- Whether the operation runs the program. -/
def isExecute : Operation → Bool
  | execute _ => true
  | _ => false

end Operation

variable {m : Machine} {p : Program}

-- ========================================================= one operation

/-- A machine that is not idle refuses to run and stays as it is. -/
theorem execute_of_not_idle (h : m.status ≠ .idle) (event : Option Json) :
    m.execute event = (.error (.invalidState m.status), m) := by
  unfold execute
  rw [if_pos h]

/-- So does an idle one without a program. -/
theorem execute_without_program (hidle : m.status = .idle) (hnone : m.program = none)
    (event : Option Json) : m.execute event = (.error .noProgram, m) := by
  unfold execute
  rw [if_neg (not_not_intro hidle), hnone]

/-- An idle machine with a program enters it like a branch. -/
theorem execute_of_idle (hidle : m.status = .idle) (hp : m.program = some p)
    (event : Option Json) :
    m.execute event = ending (Step.enter? (some p.steps) (m.start p event)) := by
  unfold execute
  rw [if_neg (not_not_intro hidle), hp]
  rfl

/-- A run ends; it is over in one of three ways. -/
theorem ending_isFinished (r : Machine × Option RunError) :
    (ending r).2.status.isFinished = true := by
  rw [ending_snd, conclude_status]
  split
  · rfl
  · split <;> rfl

/-- A run that has ended is neither to begin nor going on. -/
theorem ne_of_isFinished {status : Status} (h : status.isFinished = true) :
    status ≠ .idle ∧ status ≠ .running := by
  cases status <;> simp [Status.isFinished] at h ⊢

/-- A run keeps the settings and the program, whichever way it ends. -/
theorem execute_keeps (m : Machine) (event : Option Json) :
    (m.execute event).2.settings = m.settings ∧ (m.execute event).2.program = m.program := by
  rcases m.execute_cases event with ⟨hstays, -⟩ | ⟨p, -, hruns, -⟩
  · rw [hstays]
    exact ⟨rfl, rfl⟩
  · have hstart : (m.start p event).settings = m.settings
        ∧ (m.start p event).program = m.program := by
      cases event <;> exact ⟨rfl, rfl⟩
    have hframe := Step.enter?_sameFrame (some p.steps) (m.start p event)
    rw [hruns, ending_snd, ← hstart.1, ← hstart.2, ← hframe.settings, ← hframe.program]
    cases (Step.enter? (some p.steps) (m.start p event)).2 <;> exact ⟨rfl, rfl⟩

/-- Every operation but a load and a run sets variables, flags and events, and nothing else. -/
theorem serve_cases (m : Machine) (op : Operation) :
    (∃ p cast, op = .load p cast) ∨ (∃ event, op = .execute event)
      ∨ ∃ globals halted error events,
        m.serve op = { m with globals, halted, error, events } := by
  cases op with
  | load p cast => exact Or.inl ⟨p, cast, rfl⟩
  | execute event => exact Or.inr (Or.inl ⟨event, rfl⟩)
  | setPath path value =>
      refine Or.inr (Or.inr ?_)
      simp only [serve, setPath]
      cases m.globals.setPath path value with
      | error e => exact ⟨_, _, _, _, rfl⟩
      | ok g => exact ⟨_, _, _, _, rfl⟩
  | _ => exact Or.inr (Or.inr ⟨_, _, _, _, rfl⟩)

theorem serve_settings (m : Machine) (op : Operation) : (m.serve op).settings = m.settings := by
  rcases m.serve_cases op with ⟨p, cast, rfl⟩ | ⟨event, rfl⟩ | ⟨g, halted, error, events, hserve⟩
  · rfl
  · exact (m.execute_keeps event).1
  · rw [hserve]

/-- Only a load changes the program. -/
theorem serve_program {op : Operation} (h : op.isLoad = false) :
    (m.serve op).program = m.program := by
  rcases m.serve_cases op with ⟨p, cast, rfl⟩ | ⟨event, rfl⟩ | ⟨g, halted, error, events, hserve⟩
  · cases h
  · exact (m.execute_keeps event).2
  · rw [hserve]

/-- Only a load or a run changes the status. -/
theorem serve_status {op : Operation} (hload : op.isLoad = false)
    (hexecute : op.isExecute = false) : (m.serve op).status = m.status := by
  rcases m.serve_cases op with ⟨p, cast, rfl⟩ | ⟨event, rfl⟩ | ⟨g, halted, error, events, hserve⟩
  · cases hload
  · cases hexecute
  · rw [hserve]

/-- After a run of a program a machine is idle no more. -/
theorem execute_status_ne_idle (hp : m.program = some p) (event : Option Json) :
    (m.execute event).2.status ≠ .idle := by
  by_cases hidle : m.status = .idle
  · rw [execute_of_idle hidle hp]
    exact (ne_of_isFinished (ending_isFinished _)).1
  · rw [execute_of_not_idle hidle]
    exact hidle

/-- A run does not leave a machine running. -/
theorem execute_status_ne_running (h : m.status ≠ .running) (event : Option Json) :
    (m.execute event).2.status ≠ .running := by
  rcases m.execute_cases event with ⟨hstays, -⟩ | ⟨p, -, hruns, -⟩
  · rw [hstays]
    exact h
  · rw [hruns]
    exact (ne_of_isFinished (ending_isFinished _)).2

theorem serve_status_ne_running (h : m.status ≠ .running) (op : Operation) :
    (m.serve op).status ≠ .running := by
  rcases m.serve_cases op with ⟨p, cast, rfl⟩ | ⟨event, rfl⟩ | ⟨g, halted, error, events, hserve⟩
  · show Status.idle ≠ .running
    decide
  · exact execute_status_ne_running h event
  · rw [hserve]
    exact h

-- ================================================== one after another

theorem serveAll_settings (ops : List Operation) (m : Machine) :
    (m.serveAll ops).settings = m.settings := by
  induction ops generalizing m with
  | nil => rfl
  | cons op ops ih => exact (ih (m.serve op)).trans (m.serve_settings op)

theorem serveAll_status_ne_running (h : m.status ≠ .running) (ops : List Operation) :
    (m.serveAll ops).status ≠ .running := by
  induction ops generalizing m with
  | nil => exact h
  | cons op ops ih => exact ih (serve_status_ne_running h op)

/-- Where nothing was ever loaded there is nothing to run. -/
theorem serveAll_without_load {ops : List Operation} (hnone : m.program = none)
    (h : ∀ op ∈ ops, op.isLoad = false) :
    (m.serveAll ops).program = none ∧ (m.serveAll ops).status = m.status := by
  induction ops generalizing m with
  | nil => exact ⟨hnone, rfl⟩
  | cons op ops ih =>
      obtain ⟨hop, hops⟩ := List.forall_mem_cons.mp h
      have hstatus : (m.serve op).status = m.status := by
        cases hexecute : op.isExecute with
        | false => exact serve_status hop hexecute
        | true =>
            cases op with
            | execute event =>
                rcases m.execute_cases event with ⟨hstays, -⟩ | ⟨p, hp, -⟩
                · exact congrArg Machine.status hstays
                · cases hnone.symm.trans hp
            | _ => cases hexecute
      have hrest := ih ((serve_program hop).trans hnone) hops
      exact ⟨hrest.1, hrest.2.trans hstatus⟩

/-- Behind a load the program stays, and the machine is idle until it is run. -/
theorem serveAll_since_load {ops : List Operation} (hp : m.program = some p)
    (h : ∀ op ∈ ops, op.isLoad = false) :
    (m.serveAll ops).program = some p
      ∧ ((m.serveAll ops).status = .idle
        ↔ m.status = .idle ∧ ∀ op ∈ ops, op.isExecute = false) := by
  induction ops generalizing m with
  | nil => exact ⟨hp, by simp [serveAll]⟩
  | cons op ops ih =>
      obtain ⟨hop, hops⟩ := List.forall_mem_cons.mp h
      obtain ⟨hprogram, hstatus⟩ := ih ((serve_program hop).trans hp) hops
      refine ⟨hprogram, hstatus.trans ?_⟩
      cases hexecute : op.isExecute with
      | false => simp [serve_status hop hexecute, hexecute]
      | true =>
          cases op with
          | execute event =>
              have hspent : (m.serve (.execute event)).status ≠ .idle :=
                execute_status_ne_idle hp event
              simp [hspent, hexecute]
          | _ => cases hexecute

/-- A past with a load in it is what came before the last one, that load, and the rest. -/
theorem Operation.split_at_last_load {past : List Operation} (h : ∃ op ∈ past, op.isLoad = true) :
    ∃ before p cast since, past = before ++ .load p cast :: since
      ∧ ∀ op ∈ since, op.isLoad = false := by
  induction past with
  | nil =>
      obtain ⟨op, hop, -⟩ := h
      cases hop
  | cons op ops ih =>
      by_cases hlater : ∃ op ∈ ops, op.isLoad = true
      · obtain ⟨before, p, cast, since, hops, hsince⟩ := ih hlater
        exact ⟨op :: before, p, cast, since, congrArg (op :: ·) hops, hsince⟩
      · have hnone : ∀ op ∈ ops, op.isLoad = false := by simpa using hlater
        have hload : op.isLoad = true := by simpa [hlater] using h
        cases op with
        | load p cast => exact ⟨[], p, cast, ops, rfl, hnone⟩
        | _ => cases hload

theorem serveAll_append (m : Machine) (before since : List Operation) :
    m.serveAll (before ++ since) = (m.serveAll before).serveAll since :=
  List.foldl_append

-- ============================================================== the life

/-- The machine runs the program on the event: the program is walked, which answers no error,
and the run ends as the walk leaves the machine, with an error if one is recorded, else
halted if the flag is set. -/
structure RunsToEnd (m : Machine) (p : Program) (event : Option Json) : Prop where
  walked : ∃ walked, (m.start p event).runSteps p.steps = (walked, none)
    ∧ (m.execute event).2 = walked.conclude none
  errored_iff : (m.execute event).2.status = .errored ↔ (m.execute event).2.error.isSome
  answers_error : ∀ e, (m.execute event).1 = .error e ↔ (m.execute event).2.error = some e
  answers_status : (m.execute event).2.error = none →
    (m.execute event).1 = .ok (m.execute event).2.status
      ∧ (m.execute event).2.status
        = if (m.execute event).2.halted then .halted else .completed

/-- The end of a run is told by the error and the flag it leaves behind. -/
theorem conclude_endStatus (m : Machine) (error : Option RunError) :
    (m.conclude error).status = (m.conclude error).endStatus := by
  cases error <;> rfl

/-- What a run answers can be told by what it leaves: the error, or else the status. -/
theorem ending_fst (r : Machine × Option RunError) :
    (ending r).1 = match (ending r).2.error with
      | some e => .error e
      | none => .ok (ending r).2.status := by
  rw [ending_snd]
  unfold ending
  cases (r.1.conclude r.2).error <;> rfl

/-- A machine at rest has room for its program. -/
theorem AtRest.atLimit (h : m.AtRest) : m.atLimit = false := by
  unfold Machine.atLimit
  rw [h.depth]
  rfl

/-- A machine at rest that is idle runs its program to an end. -/
theorem AtRest.runsToEnd (h : m.AtRest) (hidle : m.status = .idle) (hp : m.program = some p)
    (event : Option Json) : m.RunsToEnd p event := by
  have hroom : (m.start p event).atLimit = false := (h.start p event).atLimit
  obtain ⟨walked, hwalked⟩ : ∃ walked, (m.start p event).runSteps p.steps = (walked, none) :=
    ⟨_, runSteps_eq hroom p.steps⟩
  have hends : m.execute event = ending (walked, none) := by
    rw [execute_of_idle hidle hp]
    exact congrArg ending hwalked
  have hafter : (m.execute event).2 = walked.conclude none := by
    rw [hends, ending_snd]
  have hanswer := ending_fst (walked, none)
  rw [← hends] at hanswer
  have hstatus : (m.execute event).2.status = (m.execute event).2.endStatus := by
    rw [hafter]
    exact conclude_endStatus walked none
  unfold endStatus at hstatus
  cases herror : (m.execute event).2.error with
  | some e =>
      rw [herror] at hanswer hstatus
      refine ⟨⟨walked, hwalked, hafter⟩, ?_, ?_, ?_⟩
      · simp [hstatus, herror]
      · simp [hanswer, herror]
      · simp [herror]
  | none =>
      rw [herror] at hanswer hstatus
      refine ⟨⟨walked, hwalked, hafter⟩, ?_, ?_, ?_⟩
      · rw [hstatus, herror]
        cases (m.execute event).2.halted <;> simp
      · simp [hanswer, herror]
      · intro
        exact ⟨hanswer, hstatus⟩

/-- What a run leaves is what the walk of its program leaves, concluded. -/
theorem AtRest.execute_eq_walk (h : m.AtRest) (hidle : m.status = .idle)
    (hp : m.program = some p) (event : Option Json) :
    (m.execute event).2
      = ({ Step.walk p.steps { m.start p event with depth := m.depth + 1 } with
          depth := m.depth } : Machine).conclude none := by
  have hdepth : (m.start p event).depth = m.depth := by cases event <;> rfl
  have hruns := runSteps_eq (h.start p event).atLimit p.steps
  rw [hdepth] at hruns
  rw [execute_of_idle hidle hp, ending_snd]
  exact congrArg (fun r => r.1.conclude r.2) hruns

/-- What is true of a machine after any operations. It is at rest and not running. As long as
nothing was loaded it is idle and has no program; behind its last load it has that program,
and it is idle until it is run, so a load admits exactly one run. A machine that is not idle,
or that has no program, answers an error and stays as it is; every other one runs its program
to one of the three ends. A load makes of it what it makes of a new machine with the same
settings and the same world. -/
theorem life_cycle (settings : Settings) (world : World) (past : List Operation) :
    let m := (new settings world).serveAll past
    m.stack.toList = [] ∧ m.depth = 0 ∧ m.status ≠ .running
      ∧ ((∀ op ∈ past, op.isLoad = false) → m.status = .idle ∧ m.program = none)
      ∧ (∀ before p cast since, past = before ++ .load p cast :: since →
        (∀ op ∈ since, op.isLoad = false) →
          m.program = some p ∧ (m.status = .idle ↔ ∀ op ∈ since, op.isExecute = false))
      ∧ (∀ event,
        (m.status ≠ .idle → m.execute event = (.error (.invalidState m.status), m))
          ∧ (m.status = .idle → (∀ op ∈ past, op.isLoad = false) →
            m.execute event = (.error .noProgram, m))
          ∧ (m.status = .idle → (∃ op ∈ past, op.isLoad = true) →
            ∃ p, m.program = some p ∧ m.RunsToEnd p event))
      ∧ ∀ p cast, m.load p cast = (new settings m.world).load p cast := by
  intro m
  have hrest : m.AtRest := (new_atRest settings world).serveAll past
  have hempty : (∀ op ∈ past, op.isLoad = false) → m.program = none ∧ m.status = .idle :=
    serveAll_without_load rfl
  have hsince : ∀ before p cast since, past = before ++ .load p cast :: since →
      (∀ op ∈ since, op.isLoad = false) →
        m.program = some p ∧ (m.status = .idle ↔ ∀ op ∈ since, op.isExecute = false) := by
    intro before p cast since hpast hload
    have hm : m = (((new settings world).serveAll before).load p cast).serveAll since := by
      show (new settings world).serveAll past = _
      rw [hpast, serveAll_append]
      rfl
    obtain ⟨hprogram, hstatus⟩ := serveAll_since_load
      (m := ((new settings world).serveAll before).load p cast) rfl hload
    rw [hm]
    exact ⟨hprogram, hstatus.trans (and_iff_right rfl)⟩
  refine ⟨?_, hrest.depth, ?_, fun hnone => (hempty hnone).symm, hsince, ?_, ?_⟩
  · rw [hrest.stack, CallStack.toList_empty]
  · exact serveAll_status_ne_running (m := new settings world) Status.noConfusion past
  · intro event
    refine ⟨fun hspent => execute_of_not_idle hspent event, ?_, ?_⟩
    · intro hidle hnone
      exact execute_without_program hidle (hempty hnone).1 event
    · intro hidle hload
      obtain ⟨before, p, cast, since, hpast, hnone⟩ := Operation.split_at_last_load hload
      have hp : m.program = some p := (hsince before p cast since hpast hnone).1
      exact ⟨p, hp, hrest.runsToEnd hidle hp event⟩
  · intro p cast
    have hsettings : m.settings = settings := serveAll_settings past (new settings world)
    rw [← hsettings]
    rfl

end EventScript.Machine
