/-
The `queue` instruction: the value of a variable becomes the payload of a named job.
-/
import EventScript.Globals
import EventScript.Instruction.Decode
import EventScript.JobQueue
import EventScript.Schema

namespace EventScript.Instruction

/-- A job to be enqueued: the queue, the name of the job, and the variable whose value goes with
it. -/
structure JobOrder where
  queue : String
  jobName : String
  variableName : String

namespace JobOrder

/-- The word that calls the instruction. -/
def name : String := "queue"

/-- All three texts are needed, and none of them is empty. -/
def schema : Schema := ⟨[
  .need "queue" .string [.minLength 1],
  .need "jobName" .string [.minLength 1],
  .need "variable" .string [.minLength 1]]⟩

/-- The instruction that arguments describe. -/
def decode : Decode.Reader JobOrder :=
  Decode.record "struct QueueInstruction"
    [Decode.slot "queue" Decode.text, Decode.slot "jobName" Decode.text,
      Decode.slot "variable" Decode.text] fun args => do
      let queue ← Decode.need args "queue" Decode.text
      let jobName ← Decode.need args "jobName" Decode.text
      let variableName ← Decode.need args "variable" Decode.text
      return { queue, jobName, variableName }

/-- The job; what cannot be reached is null. -/
def job (i : JobOrder) (g : Globals) : Job where
  queue := i.queue
  name := i.jobName
  payload := (g.getPath? i.variableName).getD .null

end JobOrder
end EventScript.Instruction
