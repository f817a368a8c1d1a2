/-
Runs that look alike. A veil hides events of a machine and some of its world, the log at
least; where a run is and how it stands are in plain sight. If actions that are performed on
machines which look alike leave machines that look alike, and answer alike, then a whole run
does: it takes the same branches, stops at the same step, and ends in the same way.

So what is hidden has no part in a run as soon as it has none in its actions, and the walk is
gone through here once for whatever is to be hidden.
-/
import EventScript.Proofs.Machine.Blindness
import EventScript.Proofs.Machine.Moments

namespace EventScript

open Instruction (Condition)

/-- What is left to see of the events and of the world. -/
structure Veil where
  events : List Event → List Event
  world : World → World

/-- What is seen of a machine through a veil. -/
def Machine.seen (v : Veil) (m : Machine) : Machine :=
  { m with events := v.events m.events, world := v.world m.world }

/-- The two outcomes answer alike, and leave machines that look alike. -/
structure Veil.Alike (v : Veil) (r r' : Machine × Option RunError) : Prop where
  machine : r.1.seen v = r'.1.seen v
  answer : r.2 = r'.2

/-- The veil hides the log, and actions do not go by what it hides. -/
structure Veil.Steady (v : Veil) : Prop where
  log : ∀ w log, v.world { w with log } = v.world w
  perform : ∀ (a : Action) {k m : Machine}, k.seen v = m.seen v →
    v.Alike (a.perform k) (a.perform m)

namespace Machine

variable {v : Veil} (hv : v.Steady) {k m : Machine}

include hv

/-- Records are added to the log unseen. -/
theorem seen_log (h : k.seen v = m.seen v) (record record' : Log.Record) :
    (k.log record).seen v = (m.log record').seen v := by
  have hunseen : ∀ (b : Machine) (record : Log.Record), (b.log record).seen v = b.seen v := by
    intro b record
    unfold seen log logAll
    rw [hv.log]
  rw [hunseen, hunseen, h]

/-- Steps begin alike behind the veil. -/
theorem seen_begin (h : k.seen v = m.seen v) (call : Call) :
    (k.begin call).seen v = (m.begin call).seen v :=
  congrArg (fun b : Machine => { b with stack := b.stack.push call }) (seen_log hv h _ _)

theorem seen_finish {r r' : Machine × Option RunError} (h : v.Alike r r') (call : Call) :
    (r.1.finish call r.2).seen v = (r'.1.finish call r'.2).seen v := by
  have hpop := congrArg (fun b : Machine => { b with stack := b.stack.pop }) h.machine
  rw [h.answer]
  cases r'.2 with
  | none => exact hpop
  | some e =>
      exact congrArg (fun b : Machine => b.setError e) (seen_log hv
        (k := { r.1 with stack := r.1.stack.pop }) (m := { r'.1 with stack := r'.1.stack.pop })
        hpop _ _)

theorem seen_start (h : k.seen v = m.seen v) (p : Program) (event : Option Json) :
    (k.start p event).seen v = (m.start p event).seen v := by
  unfold start
  cases event with
  | none => exact seen_log hv (congrArg (fun b : Machine => { b with status := .running }) h) _ _
  | some e =>
      exact seen_log hv
        (congrArg (fun b : Machine => { b.set "event" e with status := .running }) h) _ _

theorem seen_conclude {r r' : Machine × Option RunError} (h : v.Alike r r') :
    (r.1.conclude r.2).seen v = (r'.1.conclude r'.2).seen v := by
  rw [h.answer]
  unfold conclude
  cases r'.2 with
  | none =>
      exact seen_log hv
        (congrArg (fun b : Machine => { b with status := b.endStatus }) h.machine) _ _
  | some e =>
      exact seen_log hv (congrArg (fun b : Machine =>
        { b.setError e with status := (b.setError e).endStatus }) h.machine) _ _

end Machine

open Machine

-- =============================================================== the walk

mutual

/-- A step does the same behind the veil, if every action does. -/
theorem Step.perform_seen {v : Veil} (hv : v.Steady) : ∀ (s : Step) {k m : Machine},
    k.seen v = m.seen v → v.Alike (s.perform k) (s.perform m)
  | .action _ a, _, _, h => hv.perform a h
  | .branch call condition zero one, k, m, h => by
      have hdirective : (k.decide condition).1 = (m.decide condition).1 :=
        eq_of_view (fun m => (m.decide condition).1) h fun _ => rfl
      have hdecide : (k.decide condition).2.seen v = (m.decide condition).2.seen v :=
        seen_log hv h _ _
      have hzero := Step.enter?_seen hv zero hdecide
      have hone := Step.enter?_seen hv one hdecide
      rw [Step.perform_branch, Step.perform_branch, hdirective]
      by_cases hhalt : (m.decide condition).1 = some .halt
      · rw [if_pos hhalt, if_pos hhalt]
        have hlog := seen_log hv hdecide (Log.info "condition: halting program")
          (Log.info "condition: halting program")
        exact ⟨congrArg (fun b : Machine => b.halt true) hlog, rfl⟩
      · rw [if_neg hhalt, if_neg hhalt]
        exact Step.selected_cases (P := fun b => v.Alike
            (Step.enter? b (k.decide condition).2) (Step.enter? b (m.decide condition).2))
          (m.decide condition).1 ⟨hdecide, rfl⟩ hzero hone

theorem Step.enter?_seen {v : Veil} (hv : v.Steady) : ∀ (branch : Option (List Step))
    {k m : Machine}, k.seen v = m.seen v →
      v.Alike (Step.enter? branch k) (Step.enter? branch m)
  | none, _, _, h => ⟨h, rfl⟩
  | some steps, k, m, h => by
      have hinner : ({ k with depth := k.depth + 1 } : Machine).seen v
          = ({ m with depth := m.depth + 1 } : Machine).seen v :=
        congrArg (fun b : Machine => { b with depth := b.depth + 1 }) h
      have hwalk := congrArg (fun b : Machine => { b with depth := b.depth - 1 })
        (Step.walk_seen hv steps hinner)
      have hlimit : k.atLimit = m.atLimit := eq_of_view atLimit h fun _ => rfl
      have hrefusal : some (RunError.tooDeep k.settings.branchLimit)
          = some (RunError.tooDeep m.settings.branchLimit) :=
        eq_of_view (fun m => some (RunError.tooDeep m.settings.branchLimit)) h fun _ => rfl
      unfold Step.enter?
      rw [hlimit]
      cases m.atLimit with
      | true => exact ⟨h, hrefusal⟩
      | false => exact ⟨hwalk, rfl⟩

theorem Step.walk_seen {v : Veil} (hv : v.Steady) : ∀ (steps : List Step) {k m : Machine},
    k.seen v = m.seen v → (Step.walk steps k).seen v = (Step.walk steps m).seen v
  | [], _, _, h => h
  | step :: rest, k, m, h => by
      have hafter : (k.after step).seen v = (m.after step).seen v :=
        seen_finish hv (Step.perform_seen hv step (seen_begin hv h step.call)) step.call
      have hstopped : (k.after step).stopped = (m.after step).stopped :=
        eq_of_view stopped hafter fun _ => rfl
      rw [Step.walk_cons, Step.walk_cons, hstopped]
      split
      · exact hafter
      · exact Step.walk_seen hv rest hafter

end

-- ================================================================== runs

namespace Machine

variable {v : Veil} {k m : Machine}

/-- Whether something is the matter when an outermost walk is over, and what, is told alike. -/
theorem seen_ending (hv : v.Steady) {r r' : Machine × Option RunError} (h : v.Alike r r') :
    (ending r).1 = (ending r').1 ∧ (ending r).2.seen v = (ending r').2.seen v := by
  have hconclude := seen_conclude hv h
  have herror : (r.1.conclude r.2).error = (r'.1.conclude r'.2).error :=
    eq_of_view Machine.error hconclude fun _ => rfl
  have hstatus : (r.1.conclude r.2).status = (r'.1.conclude r'.2).status :=
    eq_of_view Machine.status hconclude fun _ => rfl
  refine ⟨?_, ?_⟩
  · unfold ending
    rw [herror, hstatus]
    cases (r'.1.conclude r'.2).error with
    | none => rfl
    | some e => rfl
  · rw [ending_snd, ending_snd]
    exact hconclude

/-- Machines that look alike answer alike to an event, and look alike after it. -/
theorem execute_seen (hv : v.Steady) (h : k.seen v = m.seen v) (event : Option Json) :
    (k.execute event).1 = (m.execute event).1
      ∧ (k.execute event).2.seen v = (m.execute event).2.seen v := by
  have hstatus : k.status = m.status := eq_of_view Machine.status h fun _ => rfl
  have hprogram : k.program = m.program := eq_of_view Machine.program h fun _ => rfl
  unfold execute
  rw [hstatus, hprogram]
  split
  · exact ⟨rfl, h⟩
  · cases m.program with
    | none => exact ⟨rfl, h⟩
    | some p =>
        exact seen_ending hv (Step.enter?_seen hv (some p.steps) (seen_start hv h p event))

end Machine

end EventScript
