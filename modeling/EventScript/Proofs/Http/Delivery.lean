/-
How a delivery goes. Its attempts take the replies of the stream one after another: it goes
on as long as a reply lets it and there are attempts left, and the last reply is the one it
stopped at. So the number of attempts is at least one and at most one more than the retries,
and each reply is taken by one attempt.
-/
import EventScript.Http.Delivery
import EventScript.Proofs.Except

namespace EventScript.Http

namespace Delivery

/-- The delivery after `n` replies that let it go on, from the attempt numbered `attempt`. -/
def stoppedAt (replies : Nat → Reply) (attempt n : Nat) : Delivery :=
  ⟨(List.range' attempt n).map replies, replies (attempt + n)⟩

/-- Stopped at an attempt, a delivery has made that many and one. -/
theorem attempts_stoppedAt (replies : Nat → Reply) (attempt n : Nat) :
    (stoppedAt replies attempt n).attempts = n + 1 := by
  simp [attempts, stoppedAt]

/-- A delivery stops at the first reply that does not let it go on, or when no attempt is
left. -/
theorem run_eq_stoppedAt (replies : Nat → Reply) (left attempt : Nat) :
    ∃ n ≤ left, run replies left attempt = stoppedAt replies attempt n
      ∧ (∀ i < n, (replies (attempt + i)).mayRetry = true)
      ∧ (n < left → (replies (attempt + n)).mayRetry = false) := by
  induction left generalizing attempt with
  | zero =>
      refine ⟨0, Nat.le_refl 0, rfl, ?_, ?_⟩
      · intro i hi
        exact absurd hi (Nat.not_lt_zero i)
      · intro h
        exact absurd h (Nat.not_lt_zero 0)
  | succ left ih =>
      unfold run
      dsimp only
      cases hretry : (replies attempt).mayRetry with
      | false =>
          refine ⟨0, Nat.zero_le _, rfl, ?_, fun _ => hretry⟩
          intro i hi
          exact absurd hi (Nat.not_lt_zero i)
      | true =>
          obtain ⟨n, hn, hrun, hgoes, hstops⟩ := ih (attempt + 1)
          -- attempts of the tail are counted from one later
          have hshift : ∀ i, attempt + 1 + i = attempt + (i + 1) := by omega
          refine ⟨n + 1, Nat.succ_le_succ hn, ?_, ?_, ?_⟩
          · rw [hrun]
            simp only [stoppedAt, List.range'_succ, List.map_cons, hshift]
            rfl
          · intro i hi
            cases i with
            | zero => exact hretry
            | succ i =>
                rw [← hshift]
                exact hgoes i (Nat.lt_of_succ_lt_succ hi)
          · intro h
            rw [← hshift]
            exact hstops (Nat.lt_of_succ_lt_succ h)

/-- The requests are the attempts to deliver one request, the first of them numbered
`start`: the same one again and again, as long as the replies let it and there are attempts
left. -/
structure Made (replies : Nat → Reply) (retries start : Nat) (r : Request)
    (sent : List Request) : Prop where
  attempted : sent ≠ []
  bounded : sent.length ≤ retries + 1
  identical : ∀ s ∈ sent, s = r
  goes : ∀ i, i + 1 < sent.length → (replies (start + i)).mayRetry = true
  stops : sent.length ≤ retries → (replies (start + sent.length - 1)).mayRetry = false

end Delivery

-- ============================================================ the network

namespace Network

/-- The network after a request, when there is one. -/
def carry (n : Network) (p : RetryPolicy) : Option Request → Network
  | none => n
  | some r => (n.deliver p r).2

/-- What is attempted for a request, when there is one. -/
def attempts (n : Network) (p : RetryPolicy) : Option Request → List Request
  | none => []
  | some r => List.replicate (n.deliver p r).1.attempts r

/-- The reply to the last attempt for a request, when there is one. -/
def outcome? (n : Network) (p : RetryPolicy) : Option Request → Option Reply
  | none => none
  | some r => some (n.deliver p r).1.last

variable (n : Network) (p : RetryPolicy)

theorem carry_replies (request : Option Request) : (n.carry p request).replies = n.replies := by
  cases request <;> rfl

/-- What was attempted is added to what was sent. -/
theorem carry_sent (request : Option Request) :
    (n.carry p request).sent = n.sent ++ n.attempts p request := by
  cases request with
  | none => exact (List.append_nil _).symm
  | some r => rfl

/-- The attempts at a request are those that a delivery makes. -/
theorem attempts_made (r : Request) :
    Delivery.Made n.replies p.retries n.sent.length r (n.attempts p (some r)) := by
  obtain ⟨k, hk, hrun, hgoes, hstops⟩ :=
    Delivery.run_eq_stoppedAt n.replies p.retries n.sent.length
  have hattempts : n.attempts p (some r) = List.replicate (k + 1) r := by
    show List.replicate (Delivery.run n.replies p.retries n.sent.length).attempts r = _
    rw [hrun, Delivery.attempts_stoppedAt]
  rw [hattempts]
  refine ⟨nofun, ?_, fun s hs => List.eq_of_mem_replicate hs, ?_, ?_⟩
  · rw [List.length_replicate]
    exact Nat.succ_le_succ hk
  · intro i hi
    rw [List.length_replicate] at hi
    exact hgoes i (Nat.lt_of_succ_lt_succ hi)
  · rw [List.length_replicate]
    exact hstops

/-- The reply to the last attempt is the one that the stream has for it. -/
theorem outcome?_some (r : Request) :
    n.outcome? p (some r)
      = some (n.replies (n.sent.length + (n.attempts p (some r)).length - 1)) := by
  obtain ⟨k, -, hrun, -, -⟩ := Delivery.run_eq_stoppedAt n.replies p.retries n.sent.length
  show some (Delivery.run n.replies p.retries n.sent.length).last
    = some (n.replies (n.sent.length + (List.replicate
      (Delivery.run n.replies p.retries n.sent.length).attempts r).length - 1))
  rw [List.length_replicate, hrun, Delivery.attempts_stoppedAt]
  rfl

end Network

/-- A request has the body it was to be built with. -/
theorem Request.build_body {method : Method} {u : Url} {body : Json}
    {further : List (Except Fault Header)} {r : Request}
    (h : build method u body further = .ok r) : r.body = body := by
  unfold build at h
  split at h
  case isTrue =>
    obtain ⟨headers, -, hr⟩ := Except.bind_eq_ok.mp h
    cases hr
    rfl
  case isFalse => cases h

end EventScript.Http
