/-
What the clock decides. An event is marked with the time it was recorded at, and a wait
between deliveries moves the clock on; nothing a run does depends on either. So a run may
begin at any time, and with anything logged before it: it ends in the same way, with the same
variables, the same jobs and requests, and the same events but for their times.

This holds of instructions from outside as well, since they are shown the variables and the
stack and nothing else.
-/
import EventScript.Proofs.Machine.Simulation

namespace EventScript

/-- The two worlds offer the same services to a run; the log and the clock may differ. -/
structure World.SameServices (w w' : World) : Prop where
  queue : w.queue = w'.queue
  network : w.network = w'.network

/-- The event at no time in particular. -/
def Event.untimed (e : Event) : Event := { e with time := .epoch }

namespace Machine

/-- The machine at no time in particular, with nothing logged. -/
def timeless (m : Machine) : Machine :=
  { m with
    world := { m.world with log := [], now := .epoch }
    events := m.events.map Event.untimed }

variable {k m : Machine}

/-- Actions do not go by the log, nor by the clock. -/
theorem timeless_blind : Blind timeless where
  globals _ := rfl
  settings _ := rfl
  queue _ := rfl
  network _ := rfl
  logAll _ _ := rfl
  emit m category message := by simp [timeless, emit, Event.untimed]
  write m g := by simp [timeless, Event.untimed]
  react m g halts := by simp [timeless, Event.untimed]
  offer m q := by simp [timeless, Event.untimed]
  deliver m n wait := by simp [timeless, Event.untimed]

/-- The log and the times are hidden. -/
def hiddenTimes : Veil where
  events := List.map Event.untimed
  world w := { w with log := [], now := .epoch }

/-- With the times hidden, what is done looks alike where the machines do. -/
theorem hiddenTimes_steady : hiddenTimes.Steady where
  log _ _ := rfl
  perform := by
    intro a k m h
    have hlook : k.timeless = m.timeless := h
    cases hb : a.isBuiltin with
    | true =>
        refine ⟨timeless_blind.view_perform hlook hb, ?_⟩
        rw [Action.perform_eq (m := k) hb, Action.perform_eq (m := m) hb]
    | false =>
        cases a with
        | hook run =>
            have hstack : k.stack = m.stack := eq_of_view Machine.stack h fun _ => rfl
            obtain ⟨hafter, hanswer⟩ := timeless_blind.view_react hlook hstack run
            exact ⟨hafter, hanswer⟩
        | _ => cases hb

/-- A run on a program just loaded goes alike whenever it begins, if it is offered the same
services. -/
theorem execute_load_timeless (hsettings : k.settings = m.settings)
    (hw : k.world.SameServices m.world) (p : Program) (cast : Cast) (event : Option Json) :
    ((k.load p cast).execute event).1 = ((m.load p cast).execute event).1
      ∧ ((k.load p cast).execute event).2.timeless
        = ((m.load p cast).execute event).2.timeless := by
  have hlook : (k.load p cast).seen hiddenTimes = (m.load p cast).seen hiddenTimes := by
    simp only [seen, hiddenTimes, load, new, hsettings, hw.queue, hw.network]
  exact execute_seen hiddenTimes_steady hlook event

end Machine

end EventScript
