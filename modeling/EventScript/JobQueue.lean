/-
Job queues. A queue takes jobs one at a time and answers each with an id or a refusal. How
it answers is a function of what it was offered before, so a queue that keeps everything in
memory and one that is out of order are values of one type.
-/
import EventScript.Json.Basic

namespace EventScript

/-- A named job for a queue. -/
structure Job where
  queue : String
  name : String
  payload : Json

namespace JobQueue

/-- Why a queue does not take a job. -/
inductive Refusal where
  | unavailable (queue : String)
  | rejected (reason : String)
deriving DecidableEq, Repr

/-- The refusal in words. -/
def Refusal.message : Refusal → String
  | unavailable queue => "Queue '" ++ queue ++ "' is unavailable"
  | rejected reason => "Enqueue failed: " ++ reason

end JobQueue

/-- A queue: its answers, what it was offered, and what it took, each in order. -/
structure JobQueue where
  /-- The answer to a job offered after those of the list were. -/
  answer : List Job → Job → Except JobQueue.Refusal String
  offered : List Job := []
  jobs : List Job := []

namespace JobQueue

/-- The queue that takes every job and numbers them from one. -/
def inMemory : JobQueue where
  answer earlier _ := .ok (toString (earlier.length + 1))

/-- The queue that takes no job, for the same kind of reason each time. -/
def refusing (reason : Job → Refusal) : JobQueue where
  answer _ job := .error (reason job)

/-- Offers a job: the answer and the queue afterwards. -/
def offer (q : JobQueue) (job : Job) : Except Refusal String × JobQueue :=
  let answer := q.answer q.offered job
  let offered := q.offered ++ [job]
  match answer with
  | .ok _ => (answer, { q with offered, jobs := q.jobs ++ [job] })
  | .error _ => (answer, { q with offered })

end JobQueue
end EventScript
