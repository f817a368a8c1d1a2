/-
What may be done to a machine from outside, as data, so that its past is a list. Programs
are loaded and run, variables are written, and the flags by which a run is stopped can be
set by hand. Between two operations a machine is at rest: no call is on its stack and no
walk is open. A run keeps both as it finds them, whichever way it ends, and a load clears
them.
-/
import EventScript.Proofs.Machine.Moments

namespace EventScript.Machine

/-- What may be done to a machine. -/
inductive Operation where
  | load (p : Program) (cast : Cast)
  | execute (event : Option Json)
  | set (name : String) (value : Json)
  | setPath (path : String) (value : Json)
  | halt (flag : Bool)
  | setError (e : RunError)
  | emit (category message : String)

/-- The machine after an operation, whatever the answer. -/
def serve (m : Machine) : Operation → Machine
  | .load p cast => m.load p cast
  | .execute event => (m.execute event).2
  | .set name value => m.set name value
  | .setPath path value =>
    match m.setPath path value with
    | .ok m' => m'
    | .error _ => m
  | .halt flag => m.halt flag
  | .setError e => m.setError e
  | .emit category message => m.emit category message

/-- The machine after operations, one after another. -/
def serveAll (m : Machine) (ops : List Operation) : Machine := ops.foldl serve m

/-- No call is on the stack, and no walk is open. -/
structure AtRest (m : Machine) : Prop where
  stack : m.stack = .empty
  depth : m.depth = 0

variable {m : Machine}

/-- An idle machine runs the program it holds; any other stays as it is. -/
theorem execute_cases (m : Machine) (event : Option Json) :
    (m.execute event).2 = m ∧ m.moments event = []
      ∨ ∃ p, m.program = some p
        ∧ m.execute event = ending (Step.enter? (some p.steps) (m.start p event))
        ∧ m.moments event = Step.enterMoments (some p.steps) (m.start p event) := by
  unfold execute moments
  by_cases hidle : m.status ≠ .idle
  · rw [if_pos hidle, if_pos hidle]
    exact Or.inl ⟨rfl, rfl⟩
  · rw [if_neg hidle, if_neg hidle]
    cases m.program with
    | none => exact Or.inl ⟨rfl, rfl⟩
    | some p => exact Or.inr ⟨p, rfl, rfl, rfl⟩

theorem AtRest.start (h : m.AtRest) (p : Program) (event : Option Json) :
    (m.start p event).AtRest := by
  cases event <;> exact ⟨h.stack, h.depth⟩

/-- A run leaves a machine at rest, however it ends. -/
theorem AtRest.execute (h : m.AtRest) (event : Option Json) : (m.execute event).2.AtRest := by
  rcases m.execute_cases event with ⟨hstays, -⟩ | ⟨p, -, hruns, -⟩
  · rw [hstays]
    exact h
  · have hframe := Step.enter?_sameFrame (some p.steps) (m.start p event)
    have hstart := h.start p event
    rw [hruns, ending_snd]
    refine ⟨?_, ?_⟩
    · rw [(conclude_frame _ _).1, hframe.stack, hstart.stack]
    · rw [(conclude_frame _ _).2, hframe.depth, hstart.depth]

/-- Every operation leaves a machine at rest. -/
theorem AtRest.serve (h : m.AtRest) (op : Operation) : (m.serve op).AtRest := by
  cases op with
  | load p cast => exact ⟨rfl, rfl⟩
  | execute event => exact h.execute event
  | set name value => exact ⟨h.stack, h.depth⟩
  | setPath path value =>
      simp only [Machine.serve, Machine.setPath]
      cases m.globals.setPath path value with
      | error e => exact h
      | ok g => exact ⟨h.stack, h.depth⟩
  | halt flag => exact ⟨h.stack, h.depth⟩
  | setError e => exact ⟨h.stack, h.depth⟩
  | emit category message => exact ⟨h.stack, h.depth⟩

/-- Operations find a machine at rest and leave it at rest. -/
theorem AtRest.serveAll (h : m.AtRest) (ops : List Operation) : (m.serveAll ops).AtRest := by
  induction ops generalizing m with
  | nil => exact h
  | cons op ops ih => exact ih (h.serve op)

theorem new_atRest (settings : Settings) (world : World) : (new settings world).AtRest :=
  ⟨rfl, rfl⟩

end EventScript.Machine
