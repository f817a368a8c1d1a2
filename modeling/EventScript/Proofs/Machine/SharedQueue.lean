/-
Several machines with one queue. Their runs are processes that move one at a time, in any order
and for as long as one likes; a process finds the queue as the move before has left it,
whoever made that move, and takes nothing else from the others. A schedule is the list of who
moves, so every way in which runs may come in between each other is a schedule.

One move offers the queue one job or none. What the queue has taken is therefore what the orders
executed so far have put there, one after another; and since a queue in memory numbers a job by
how many it has already, the numbers go up by one from order to order, and no two orders are
answered with the same.
-/
import EventScript.Proofs.Machine.Moves
import EventScript.Proofs.Machine.Services
import EventScript.Proofs.Machine.Success
import EventScript.Proofs.Machine.WrittenOrder
import EventScript.Proofs.Text.Numeral
import Mathlib.Data.List.Forall2
import Mathlib.Data.List.Range

namespace EventScript

open Instruction (JobOrder)

/-- What a list of events tells about jobs that were taken. -/
def queued (events : List Event) : List String :=
  (events.filter fun e => e.category == "queue").map Event.message

theorem queued_append (events events' : List Event) :
    queued (events ++ events') = queued events ++ queued events' := by
  unfold queued
  rw [List.filter_append, List.map_append]

/-- Messages about jobs are told as they are. -/
theorem queued_told (messages : List String) (now : Timestamp) :
    queued (messages.map fun message => ⟨"queue", message, now⟩) = messages := by
  induction messages with
  | nil => rfl
  | cons message messages ih => exact congrArg (message :: ·) ih

-- ================================================================ one move

/-- What a built-in action tells about jobs is the answer to the order that it places. -/
theorem Action.queued_perform {a : Action} (ha : a.isBuiltin = true) (m : Machine) :
    queued (a.perform m).1.events = queued m.events ++ match a.order? with
      | none => []
      | some i => i.told (m.world.queue.offer (i.job m.globals)).1 := by
  cases ho : a.order? with
  | some i =>
      cases a with
      | queue j =>
          cases ho
          show queued (m.enqueue i).events = _
          rw [(Machine.enqueue_asks i).events, queued_append, queued_told]
      | _ => cases ho
  | none =>
      have hcategory : a.category? ≠ some "queue" := by
        cases a with
        | queue j => cases ho
        | _ => simp [Action.category?]
      obtain ⟨told, hasked⟩ := a.perform_asks m
      have hnone : queued told = [] := by
        unfold queued
        refine List.map_eq_nil_iff.mpr (List.filter_eq_nil_iff.mpr fun e he hq => hcategory ?_)
        rw [hasked.category ha e he, eq_of_beq hq]
      rw [hasked.events, queued_append, hnone]

/-- Where a process is about to walk a branch, nothing has been done. -/
theorem Step.inside?_deeds {s : Step} {m m' : Machine} {steps : List Step}
    (h : s.inside? m = some (steps, m')) : m'.deeds = m.deeds := by
  cases s with
  | action call a => cases h
  | branch call condition zero one =>
      obtain ⟨-, -, rfl⟩ := Step.inside?_branch.mp h
      rfl

/-- A condition that walks no branch does nothing. -/
theorem Step.perform_branch_deeds {call : Call} {condition : Instruction.Condition}
    {zero one : Option (List Step)} {m : Machine}
    (h : (Step.branch call condition zero one).inside? m = none) :
    (Step.perform (.branch call condition zero one) (m.begin call)).1.deeds = m.deeds := by
  have hnot : ∀ steps, Step.selected ((m.begin call).decide condition).1 zero one = some steps →
      ((m.begin call).decide condition).2.atLimit = true := by
    intro steps hselected
    refine eq_true_of_ne_false fun hlimit => ?_
    rw [Step.inside?_branch.mpr ⟨hselected, hlimit, rfl⟩] at h
    cases h
  rw [Step.perform_branch]
  split
  · rfl
  · revert hnot
    cases Step.selected ((m.begin call).decide condition).1 zero one with
    | none => exact fun _ => rfl
    | some steps =>
        intro hnot
        unfold Step.enter?
        rw [if_pos (hnot steps rfl)]
        rfl

namespace Process

variable {p : Process}

/-- The order that the next move places, if it executes one. -/
def order? (p : Process) : Option JobOrder :=
  match p.ahead with
  | .action _ a :: _ => a.order?
  | _ => none

/-- What a move does is what the action does that it executes; any other move does nothing. -/
theorem move_deeds (p : Process) : p.move.machine.deeds = match p.ahead with
    | .action call a :: _ => (a.perform (p.machine.begin call)).1.deeds
    | _ => p.machine.deeds := by
  obtain ⟨m, ahead, enclosing⟩ := p
  unfold move
  cases ahead with
  | nil =>
      cases enclosing with
      | nil => rfl
      | cons frame outer => rfl
  | cons step rest =>
      dsimp only
      cases hinside : step.inside? m with
      | some inner =>
          obtain ⟨steps, m'⟩ := inner
          cases step with
          | action call a => cases hinside
          | branch call condition zero one => exact Step.inside?_deeds hinside
      | none =>
          show (m.after step).deeds = _
          rw [m.after_deeds]
          cases step with
          | action call a => rfl
          | branch call condition zero one => exact Step.perform_branch_deeds hinside

/-- A move offers the queue the job of its order. -/
theorem move_queue (p : Process) : p.move.machine.world.queue
    = p.machine.world.queue.receive (p.order?.map fun i => i.job p.machine.globals) := by
  have hdeeds := congrArg (fun fx => fx.world.queue) p.move_deeds
  refine hdeeds.trans ?_
  unfold order?
  split
  · next call a _ _ =>
    obtain ⟨_, hasked⟩ := a.perform_asks (p.machine.begin call)
    exact hasked.queue
  · rfl

/-- All that is ahead of a process is built in, also behind the branches it is in. -/
structure IsBuiltin (p : Process) : Prop where
  ahead : Step.listBuiltin p.ahead = true
  enclosing : ∀ frame ∈ p.enclosing, Step.listBuiltin frame.2 = true

/-- What a move tells about jobs is the answer to its order. -/
theorem queued_move (h : p.IsBuiltin) : queued p.move.machine.events
    = queued p.machine.events ++ match p.order? with
      | none => []
      | some i => i.told (p.machine.world.queue.offer (i.job p.machine.globals)).1 := by
  have hdeeds := congrArg (fun fx => queued fx.events) p.move_deeds
  have hahead := h.ahead
  refine hdeeds.trans ?_
  unfold order?
  split
  · next call a rest heq =>
    rw [heq] at hahead
    exact Action.queued_perform (Bool.and_eq_true_iff.mp hahead).1 (p.machine.begin call)
  · exact (List.append_nil _).symm

/-- A process that goes on with built-in steps has only those ahead. -/
theorem goOn_isBuiltin {m : Machine} {rest : List Step} {enclosing : List (Call × List Step)}
    (hrest : Step.listBuiltin rest = true)
    (hout : ∀ frame ∈ enclosing, Step.listBuiltin frame.2 = true) :
    (goOn m rest enclosing).IsBuiltin := by
  refine ⟨?_, hout⟩
  unfold goOn
  dsimp only
  split
  · rfl
  · exact hrest

/-- A move does not bring in anything from outside. -/
theorem IsBuiltin.move (h : p.IsBuiltin) : p.move.IsBuiltin := by
  obtain ⟨m, ahead, enclosing⟩ := p
  obtain ⟨hahead, hout⟩ := h
  unfold Process.move
  cases ahead with
  | nil =>
      cases enclosing with
      | nil => exact ⟨hahead, hout⟩
      | cons frame outer =>
          exact goOn_isBuiltin (hout frame (List.mem_cons_self ..))
            fun other hother => hout other (List.mem_cons_of_mem _ hother)
  | cons step rest =>
      obtain ⟨hstep, hrest⟩ := Bool.and_eq_true_iff.mp hahead
      dsimp only
      cases hinside : step.inside? m with
      | none => exact goOn_isBuiltin hrest hout
      | some inner =>
          obtain ⟨steps, m'⟩ := inner
          refine ⟨?_, List.forall_mem_cons.mpr ⟨hrest, hout⟩⟩
          cases step with
          | action call a => cases hinside
          | branch call condition zero one =>
              obtain ⟨hselected, -, -⟩ := Step.inside?_branch.mp hinside
              obtain ⟨hzero, hone⟩ := Bool.and_eq_true_iff.mp hstep
              have hbranch : Step.branchBuiltin (some steps) = true := by
                rw [← hselected]
                exact Step.selected_cases (P := fun b => Step.branchBuiltin b = true) _ rfl
                  hzero hone
              exact hbranch

end Process

-- ============================================================== the schedule

/-- The queue in memory that has taken jobs. -/
def JobQueue.holding (jobs : List Job) : JobQueue := { inMemory with offered := jobs, jobs }

/-- The process with the queue that it shares as it is now. -/
def Process.on (p : Process) (queue : JobQueue) : Process :=
  { p with machine := { p.machine with world := { p.machine.world with queue } } }

theorem Machine.begins_on (m : Machine) (p : Program) (event : Option Json) :
    (m.begins p event).on m.world.queue = m.begins p event := by
  cases event <;> rfl

theorem Machine.begins_events (m : Machine) (p : Program) (event : Option Json) :
    (m.begins p event).machine.events = m.events := by
  cases event <;> rfl

/-- Processes and the queue that they share. -/
structure System (ι : Type) where
  queue : JobQueue
  processes : ι → Process

/-- An order that was executed: whose it was, the variables then, and the answer. -/
structure Placed (ι : Type) where
  owner : ι
  order : JobOrder
  globals : Globals
  answer : Except JobQueue.Refusal String

namespace Placed

variable {ι : Type}

/-- The job that the order enqueues: the value is looked up in the variables of that moment,
and is null where there is none. -/
def job (x : Placed ι) : Job where
  queue := x.order.queue
  name := x.order.jobName
  payload := (x.globals.getPath? x.order.variableName).getD .null

/-- What the owner tells of it. -/
def told (x : Placed ι) : List String := x.order.told x.answer

/-- Where all orders were taken, what is told is the id of each. -/
theorem told_of_taken {xs : List (Placed ι)} (h : ∀ x ∈ xs, ∃ id, x.answer = .ok id) :
    List.Forall₂ (fun message x => ∃ id, x.answer = .ok id ∧ message = x.order.message id)
      (xs.flatMap Placed.told) xs := by
  induction xs with
  | nil => exact .nil
  | cons x xs ih =>
      obtain ⟨id, hid⟩ := h x (List.mem_cons_self ..)
      have htold : x.told = [x.order.message id] := by
        unfold Placed.told
        rw [hid]
        rfl
      rw [List.flatMap_cons, htold]
      exact .cons ⟨id, hid, rfl⟩ (ih fun y hy => h y (List.mem_cons_of_mem _ hy))

end Placed

namespace System

variable {ι : Type} [DecidableEq ι]

/-- One of the processes moves. -/
def move (s : System ι) (i : ι) : System ι :=
  let p := ((s.processes i).on s.queue).move
  ⟨p.machine.world.queue, Function.update s.processes i p⟩

/-- The processes move as the schedule says. -/
def run (s : System ι) (schedule : List ι) : System ι := schedule.foldl move s

/-- The order that a process executes when it moves, if it executes one. -/
def places (s : System ι) (i : ι) : List (Placed ι) :=
  match (s.processes i).order? with
  | none => []
  | some order =>
    let globals := (s.processes i).machine.globals
    [⟨i, order, globals, (s.queue.offer (order.job globals)).1⟩]

/-- The orders executed on a schedule, in the order of their execution. -/
def placed (s : System ι) : List ι → List (Placed ι)
  | [] => []
  | i :: later => s.places i ++ (s.move i).placed later

variable {s : System ι}

theorem move_self (s : System ι) (i : ι) :
    (s.move i).processes i = ((s.processes i).on s.queue).move :=
  Function.update_self ..

theorem move_other {i j : ι} (h : j ≠ i) : (s.move i).processes j = s.processes j :=
  Function.update_of_ne h ..

/-- Whoever moves, a process goes on to have built-in steps ahead. -/
theorem move_isBuiltin {i : ι} (h : (s.processes i).IsBuiltin) (j : ι) :
    ((s.move j).processes i).IsBuiltin := by
  by_cases hij : i = j
  · subst hij
    rw [move_self]
    exact Process.IsBuiltin.move ⟨h.ahead, h.enclosing⟩
  · rw [move_other hij]
    exact h

-- ================================================================= the jobs

/-- A queue in memory that has taken jobs takes those of the orders that are executed, and
answers each with the next number. -/
theorem move_holding {jobs : List Job} (h : s.queue = .holding jobs) (i : ι) :
    (s.move i).queue = .holding (jobs ++ (s.places i).map Placed.job)
      ∧ (s.places i).map Placed.answer
        = (List.range' (jobs.length + 1) (s.places i).length).map fun k => .ok (toString k) := by
  have hqueue := ((s.processes i).on s.queue).move_queue
  have horder : ((s.processes i).on s.queue).order? = (s.processes i).order? := rfl
  rw [horder] at hqueue
  unfold move places
  dsimp only
  rw [hqueue]
  show s.queue.receive _ = _ ∧ _
  rw [h]
  cases (s.processes i).order? with
  | none => exact ⟨congrArg JobQueue.holding (List.append_nil jobs).symm, rfl⟩
  | some order => exact ⟨rfl, rfl⟩

/-- On any schedule the queue takes the jobs of the orders executed, and answers with the numbers
that follow. -/
theorem run_holding {jobs : List Job} (h : s.queue = .holding jobs) (schedule : List ι) :
    (s.run schedule).queue = .holding (jobs ++ (s.placed schedule).map Placed.job)
      ∧ (s.placed schedule).map Placed.answer
        = (List.range' (jobs.length + 1) (s.placed schedule).length).map
          fun k => .ok (toString k) := by
  induction schedule generalizing s jobs with
  | nil => exact ⟨by rw [← List.append_nil jobs] at h; exact h, rfl⟩
  | cons i later ih =>
      obtain ⟨hqueue, hanswers⟩ := s.move_holding h i
      obtain ⟨hjobs, hlater⟩ := ih hqueue
      have hnext : jobs.length + (s.places i).length + 1
          = jobs.length + 1 + (s.places i).length := by
        omega
      rw [List.length_append, List.length_map, hnext] at hlater
      refine ⟨?_, ?_⟩
      · rw [placed, List.map_append, ← List.append_assoc]
        exact hjobs
      · rw [placed, List.map_append, List.length_append, hanswers, hlater, ← List.map_append,
          List.range'_append_1]

-- =============================================================== the events

/-- What a process tells about jobs is told of its own orders. -/
theorem queued_move {i : ι} (h : (s.processes i).IsBuiltin) (j : ι) :
    queued ((s.move j).processes i).machine.events
      = queued (s.processes i).machine.events
        ++ ((s.places j).filter fun x => x.owner = i).flatMap Placed.told := by
  by_cases hij : i = j
  · subst hij
    have hmove := Process.queued_move (p := (s.processes i).on s.queue) ⟨h.ahead, h.enclosing⟩
    have horder : ((s.processes i).on s.queue).order? = (s.processes i).order? := rfl
    rw [horder] at hmove
    rw [move_self, hmove]
    unfold places
    cases (s.processes i).order? with
    | none => rfl
    | some order => simp [Placed.told, Process.on]
  · rw [move_other hij]
    unfold places
    cases (s.processes j).order? with
    | none => exact (List.append_nil _).symm
    | some order => simp [Ne.symm hij]

/-- On any schedule, what a process tells about jobs is told of its own orders. -/
theorem queued_run {i : ι} (h : (s.processes i).IsBuiltin) (schedule : List ι) :
    queued ((s.run schedule).processes i).machine.events
      = queued (s.processes i).machine.events
        ++ ((s.placed schedule).filter fun x => x.owner = i).flatMap Placed.told := by
  induction schedule generalizing s with
  | nil => exact (List.append_nil _).symm
  | cons j later ih =>
      have hlater := ih (s.move_isBuiltin h j)
      rw [placed, List.filter_append, List.flatMap_append, ← List.append_assoc,
        ← s.queued_move h j]
      exact hlater

-- ==================================================================== alone

/-- A process that shares its queue with nobody moves as it does by itself. -/
theorem run_replicate {i : ι} (h : (s.processes i).on s.queue = s.processes i) (n : Nat) :
    (s.run (List.replicate n i)).processes i = Process.move^[n] (s.processes i) := by
  induction n generalizing s with
  | zero => rfl
  | succ n ih =>
      have hmove : (s.move i).processes i = (s.processes i).move := by rw [move_self, h]
      have hnext : ((s.move i).processes i).on (s.move i).queue = (s.move i).processes i := by
        rw [move_self]
        rfl
      rw [Function.iterate_succ_apply, ← hmove]
      exact ih hnext

end System

-- ================================================================== the runs

/-- A run that is to begin: the world that it has to itself but for the queue, and the program
with its cast and its event. -/
structure Launch where
  settings : Settings
  world : World
  program : Program
  cast : Cast
  event : Option Json

/-- The machine that is to run, with the queue. -/
def Launch.machine (l : Launch) (queue : JobQueue) : Machine :=
  (Machine.new l.settings { l.world with queue }).load l.program l.cast

namespace System

variable {ι : Type} [DecidableEq ι]

/-- The runs as they begin, with one queue. -/
def launch (queue : JobQueue) (launches : ι → Launch) : System ι :=
  ⟨queue, fun i => ((launches i).machine queue).begins (launches i).program (launches i).event⟩

/-- The ids given are the numbers from a first one on, and no two numbers have one text. -/
theorem nodup_ids (first n : Nat) :
    ((List.range' first n).map fun k =>
      (.ok (toString k) : Except JobQueue.Refusal String)).Nodup := by
  refine List.Nodup.map ?_ List.nodup_range'
  intro k l hkl
  have hsame : toString (k : Int) = toString (l : Int) := Except.ok.inj hkl
  exact Int.ofNat.inj (Text.toString_inj.mp hsame)

/-- A run that is left to itself comes to its end, which is that of its machine. -/
theorem alone_ends (jobs : List Job) (launches : ι → Launch) (i : ι) :
    ∃ n, (((launch (.holding jobs) launches).run (List.replicate n i)).processes i).isOver = true
      ∧ (((launch (.holding jobs) launches).run (List.replicate n i)).processes i).result
        = (((launches i).machine (.holding jobs)).execute (launches i).event).2 := by
  have hrest : ((launches i).machine (.holding jobs)).AtRest := ⟨rfl, rfl⟩
  obtain ⟨q, ⟨n, hmoves⟩, hover, hresult⟩ :=
    hrest.begins_moves (p := (launches i).program) rfl rfl (launches i).event
  -- with nobody else on the schedule the queue is always the run's own
  have hshares : ((launch (.holding jobs) launches).processes i).on (.holding jobs)
      = (launch (.holding jobs) launches).processes i :=
    Machine.begins_on ((launches i).machine (.holding jobs)) _ _
  have halone : ((launch (.holding jobs) launches).run (List.replicate n i)).processes i = q :=
    (run_replicate hshares n).trans hmoves
  refine ⟨n, ?_⟩
  rw [halone]
  exact ⟨hover, hresult⟩

/-- Of any number of runs that share a queue in memory, and on any schedule: the queue has the
jobs that it had, and then one for each order in the order of their execution, with the queue
and the name that the order gives and the value that its variable has at that moment, or null.
Their ids are the numbers that follow, so no two are the same, and what a run tells about jobs
are the ids of its own, in order. Each of the runs, left to itself, is the run of its
machine. -/
theorem jobs_in_execution_order (jobs : List Job) (launches : ι → Launch) (schedule : List ι) :
    let s := launch (.holding jobs) launches
    let placed := s.placed schedule
    let after := s.run schedule
    after.queue.jobs = jobs ++ placed.map (fun x =>
        { queue := x.order.queue, name := x.order.jobName,
          payload := (x.globals.getPath? x.order.variableName).getD .null })
      ∧ placed.map Placed.answer
        = (List.range' (jobs.length + 1) placed.length).map (fun k => .ok (toString k))
      ∧ (placed.map Placed.answer).Nodup
      ∧ (∀ i, Step.listBuiltin (launches i).program.steps = true →
        List.Forall₂ (fun message x => ∃ id, x.answer = .ok id ∧ message = x.order.message id)
          (queued (after.processes i).machine.events) (placed.filter fun x => x.owner = i))
      ∧ ∀ i, ∃ n, ((s.run (List.replicate n i)).processes i).isOver = true
        ∧ ((s.run (List.replicate n i)).processes i).result
          = (((launches i).machine (.holding jobs)).execute (launches i).event).2 := by
  intro s placed after
  have hstart : s.queue = .holding jobs := rfl
  obtain ⟨hqueue, hanswers⟩ := run_holding hstart schedule
  refine ⟨by rw [hqueue]; rfl, hanswers, ?_, ?_, ?_⟩
  · rw [hanswers]
    exact nodup_ids _ _
  · intro i hbuiltin
    have hfresh : queued (s.processes i).machine.events = [] := by
      show queued (((launches i).machine _).begins _ _).machine.events = []
      rw [Machine.begins_events]
      rfl
    -- a run tells of the orders it placed, and each of them was answered with an id
    have htold := queued_run (s := s) (i := i) ⟨hbuiltin, List.forall_mem_nil _⟩ schedule
    rw [hfresh, List.nil_append] at htold
    rw [htold]
    refine Placed.told_of_taken fun x hx => ?_
    have hmem : x.answer ∈ placed.map Placed.answer :=
      List.mem_map_of_mem (List.mem_filter.mp hx).1
    rw [hanswers] at hmem
    obtain ⟨k, -, hk⟩ := List.mem_map.mp hmem
    exact ⟨_, hk.symm⟩
  · exact alone_ends jobs launches

/-- Two runs of a program that orders twice, the second between the orders of the first. -/
example :
    let order (name : String) : Step :=
      .action ⟨"queue", none⟩ (.queue { queue := "q", jobName := name, variableName := "cast.id" })
    let runs : Bool → Launch := fun _ =>
      { settings := {}, world := {}, program := ⟨[order "a", order "b"]⟩, cast := { id := "1" },
        event := none }
    let after := (launch .inMemory runs).run [true, false, false, true]
    after.queue.jobs.map Job.name = ["a", "a", "b", "b"]
      ∧ queued (after.processes true).machine.events = ["q:a -> 1", "q:b -> 4"]
      ∧ queued (after.processes false).machine.events = ["q:a -> 2", "q:b -> 3"] := by
  decide +kernel

end System

end EventScript
