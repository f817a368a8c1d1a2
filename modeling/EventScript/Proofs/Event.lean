/-
Events on lines. Lines are written one below the other, each with a line feed behind it, and can
be told apart again just when none of them has an end of line inside. As an object an event
always is one line. For reading it is one when its category and its message are, for the message
stands there as it is: one that goes on below with what looks like an event cannot be told from
two events.
-/
import EventScript.CommandLine.Execution
import EventScript.Proofs.Json.Line
import EventScript.Proofs.Timestamp.Reading

namespace EventScript

open Text (OneLine cutLines oneLine_append)

-- ================================================================= lines

namespace CommandLine

variable {l : String} {ls : List String}

theorem lines_cons (l : String) (ls : List String) : lines (l :: ls) = l ++ "\n" ++ lines ls := by
  unfold lines
  rw [List.map_cons, String.join_cons]

/-- Lines are told apart again exactly when no line ends inside another. -/
theorem cutLines_lines_iff : cutLines (lines ls) = ls ↔ ∀ l ∈ ls, OneLine l := by
  constructor
  · intro h l hl
    rw [← h] at hl
    exact Text.oneLine_of_mem_cutLines hl
  · intro h
    induction ls with
    | nil => rfl
    | cons l ls ih =>
        rw [List.forall_mem_cons] at h
        rw [lines_cons, Text.cutLines_append h.1, ih h.2]

end CommandLine

-- ============================================================== one event

/-- A time of day is one line. -/
theorem Timestamp.oneLine_clockText (t : Timestamp) : OneLine t.clockText := by
  have hpadded : ∀ width n, OneLine (padded width n) :=
    fun _ _ _ hc => Text.endsLine_of_isDigit (isDigit_of_mem_padded hc)
  have hcolon : OneLine ":" := by decide
  unfold clockText
  simp only [oneLine_append, hpadded, hcolon, and_self]

/-- Colours add no line and take none away. -/
theorem Style.oneLine_paint {colours : Bool} {style : Style} {s : String} :
    OneLine (style.paint colours s) ↔ OneLine s := by
  have hcodes : OneLine "\x1b[" ∧ OneLine style.codes ∧ OneLine "m" ∧ OneLine "\x1b[0m" := by
    cases style <;> decide
  obtain ⟨hopen, hnumbers, hmark, hclose⟩ := hcodes
  cases colours with
  | false => exact Iff.rfl
  | true =>
      show OneLine ("\x1b[" ++ style.codes ++ "m" ++ s ++ "\x1b[0m") ↔ OneLine s
      simp only [oneLine_append, hopen, hnumbers, hmark, hclose, true_and, and_true]

namespace Event

variable {colours : Bool} {format : OutputFormat} {e : Event}

/-- For reading, an event is one line where its category and its message are. -/
theorem oneLine_render_pretty :
    OneLine (e.render colours .pretty) ↔ OneLine e.category ∧ OneLine e.message := by
  have hblank : OneLine " " := by decide
  have hbrackets : OneLine "[" ∧ OneLine "]" := by decide
  show OneLine (e.time.clockText ++ " "
    ++ (style e.category).paint colours ("[" ++ Text.upper e.category ++ "]") ++ " " ++ e.message)
      ↔ _
  simp only [oneLine_append, Style.oneLine_paint, Text.oneLine_upper, hblank, hbrackets,
    e.time.oneLine_clockText, true_and, and_true]

/-- An event is one line as an object, and for reading when its parts are. -/
theorem oneLine_render_iff :
    OneLine (e.render colours format)
      ↔ format = .json ∨ OneLine e.category ∧ OneLine e.message := by
  cases format with
  | json => exact iff_of_true e.toJson.oneLine_compact (Or.inl rfl)
  | pretty => rw [oneLine_render_pretty, or_iff_right nofun]

-- ================================================================ printing

/-- The events as they are printed, one below the other. -/
def printed (colours : Bool) (format : OutputFormat) (events : List Event) : String :=
  CommandLine.lines (events.map (render colours format))

theorem printed_cons (e : Event) (events : List Event) :
    printed colours format (e :: events)
      = e.render colours format ++ "\n" ++ printed colours format events := by
  unfold printed
  rw [List.map_cons, CommandLine.lines_cons]

/-- The lines that are printed are those of the events, one for each, exactly when they are
printed as objects or each of them is one line. -/
theorem cutLines_printed_iff {events : List Event} :
    cutLines (printed colours format events) = events.map (render colours format)
      ↔ format = .json ∨ ∀ e ∈ events, OneLine e.category ∧ OneLine e.message := by
  unfold printed
  rw [CommandLine.cutLines_lines_iff, List.forall_mem_map]
  simp only [oneLine_render_iff]
  cases format with
  | json => simp
  | pretty => simp

/-- A message that goes on below as events do. -/
def goingOn (colours : Bool) (message : String) (others : List Event) : String :=
  others.foldl (fun text other => text ++ "\n" ++ other.render colours .pretty) message

/-- Events in a message are printed as events are. -/
theorem printed_goingOn (e : Event) (others : List Event) :
    printed colours .pretty [{ e with message := goingOn colours e.message others }]
      = printed colours .pretty (e :: others) := by
  induction others generalizing e with
  | nil => rfl
  | cons other others ih =>
      have hfirst := ih { e with message := e.message ++ "\n" ++ other.render colours .pretty }
      refine hfirst.trans ?_
      rw [printed_cons, printed_cons, printed_cons]
      simp only [render, String.append_assoc]

end Event
end EventScript
