/-
What a run executes, against what is written. A call may be written more than once, and two
occurrences of it are told apart by where they stand, so a step is named here by its place:
the positions and branches that lead to it from the outermost list of the program. The
listing of a program has every step at its place, depth first, a condition before its
branches.

The executions of a run are told along the recursion of the walk, as the moments of the run
are, and each keeps the place it was at. A walk goes through its list from the front and a
condition goes into one branch at most, so the executions are the listing with some steps
left out. The listing has no place twice; that nothing is executed twice, and that no run is
longer than its program, is read off that.

That these are the executions of the run, all of them and no others, shows in what is done:
each begins with what the one before has left, and what the last one leaves is what the run
leaves. Only the log is kept out of this, where the walk writes on its own account.
-/
import EventScript.Proofs.Machine.Operation
import Mathlib.Data.List.Nodup

namespace EventScript

open Instruction (Condition)

-- ================================================================ places

/-- One turn on the way to a step: to a position of a list, or into a branch. -/
inductive Turn where
  | nth (index : Nat)
  | zero
  | one
deriving DecidableEq

/-- The way to a step from the outermost list, a position first. -/
abbrev Place := List Turn

/-- A step at its place. -/
structure Occurrence where
  place : Place
  step : Step

/-- The occurrence as it is seen from one turn further out. -/
def Occurrence.behind (turn : Turn) (o : Occurrence) : Occurrence :=
  { o with place := turn :: o.place }

mutual

/-- A step and the steps inside it, depth first. -/
def Step.listing : Step → List Occurrence
  | .action call a => [⟨[], .action call a⟩]
  | .branch call condition zero one =>
    ⟨[], .branch call condition zero one⟩
      :: ((Step.branchListing zero).map (.behind .zero)
        ++ (Step.branchListing one).map (.behind .one))

/-- The listing of a branch, empty where it is absent. -/
def Step.branchListing : Option (List Step) → List Occurrence
  | none => []
  | some steps => Step.listListing 0 steps

/-- The steps of a list, whose first one has the position `n`. -/
def Step.listListing (n : Nat) : List Step → List Occurrence
  | [] => []
  | step :: rest => (Step.listing step).map (.behind (.nth n)) ++ Step.listListing (n + 1) rest

end

mutual

/-- The number of calls in a step, its own and those of its branches. -/
def Step.callCount : Step → Nat
  | .action _ _ => 1
  | .branch _ _ zero one => 1 + Step.branchCallCount zero + Step.branchCallCount one

/-- The calls written in a branch. -/
def Step.branchCallCount : Option (List Step) → Nat
  | none => 0
  | some steps => Step.listCallCount steps

/-- The calls written in a list of steps. -/
def Step.listCallCount : List Step → Nat
  | [] => 0
  | step :: rest => Step.callCount step + Step.listCallCount rest

end

/-- All steps of a program, depth first. -/
def Program.listing (p : Program) : List Occurrence := Step.listListing 0 p.steps

/-- The number of calls in a program, over all nesting. -/
def Program.callCount (p : Program) : Nat := Step.listCallCount p.steps

mutual

/-- A step lists each call in it once. -/
theorem Step.length_listing : ∀ s : Step, s.listing.length = s.callCount
  | .action _ _ => rfl
  | .branch _ _ zero one => by
      have hzero := Step.length_branchListing zero
      have hone := Step.length_branchListing one
      simp only [Step.listing, Step.callCount, List.length_cons, List.length_append,
        List.length_map]
      omega

theorem Step.length_branchListing :
    ∀ branch : Option (List Step), (Step.branchListing branch).length = Step.branchCallCount branch
  | none => rfl
  | some steps => Step.length_listListing 0 steps

theorem Step.length_listListing (n : Nat) :
    ∀ steps : List Step, (Step.listListing n steps).length = Step.listCallCount steps
  | [] => rfl
  | step :: rest => by
      have hstep := Step.length_listing step
      have hrest := Step.length_listListing (n + 1) rest
      simp only [Step.listListing, Step.listCallCount, List.length_append, List.length_map]
      omega

end

-- ====================================================== no place is twice

/-- Every place of a list begins with a position of the list. -/
theorem Step.place_of_mem_listListing {n : Nat} {steps : List Step} {o : Occurrence}
    (h : o ∈ Step.listListing n steps) : ∃ k rest, n ≤ k ∧ o.place = .nth k :: rest := by
  induction steps generalizing n with
  | nil => cases h
  | cons step steps ih =>
      rw [Step.listListing, List.mem_append] at h
      rcases h with h | h
      · obtain ⟨inner, -, rfl⟩ := List.mem_map.mp h
        exact ⟨n, inner.place, Nat.le_refl n, rfl⟩
      · obtain ⟨k, rest, hk, hplace⟩ := ih h
        exact ⟨k, rest, Nat.le_of_succ_le hk, hplace⟩

/-- Occurrences behind a turn have that turn in front of their places. -/
theorem Occurrence.map_place_behind (turn : Turn) (l : List Occurrence) :
    (l.map (.behind turn)).map Occurrence.place = (l.map Occurrence.place).map (turn :: ·) := by
  rw [List.map_map, List.map_map]
  rfl

/-- Places that differ still differ from one turn further out. -/
theorem Occurrence.nodup_map_behind {l : List Occurrence} (turn : Turn)
    (h : (l.map Occurrence.place).Nodup) :
    ((l.map (.behind turn)).map Occurrence.place).Nodup := by
  rw [Occurrence.map_place_behind]
  exact List.Nodup.map (List.cons_injective) h

mutual

/-- The places that a step lists are distinct. -/
theorem Step.nodup_listing : ∀ s : Step, (s.listing.map Occurrence.place).Nodup
  | .action _ _ => by simp [Step.listing]
  | .branch call condition zero one => by
      have hzero := Occurrence.nodup_map_behind .zero (Step.nodup_branchListing zero)
      have hone := Occurrence.nodup_map_behind .one (Step.nodup_branchListing one)
      rw [Occurrence.map_place_behind] at hzero hone
      rw [Step.listing, List.map_cons, List.map_append, Occurrence.map_place_behind,
        Occurrence.map_place_behind, List.nodup_cons, List.nodup_append']
      refine ⟨by simp, hzero, hone, ?_⟩
      -- the branches are told apart by the first turn
      intro place hz ho
      obtain ⟨z, -, rfl⟩ := List.mem_map.mp hz
      obtain ⟨o, -, heq⟩ := List.mem_map.mp ho
      cases (List.cons.inj heq).1

theorem Step.nodup_branchListing :
    ∀ branch : Option (List Step), ((Step.branchListing branch).map Occurrence.place).Nodup
  | none => List.nodup_nil
  | some steps => Step.nodup_listListing 0 steps

theorem Step.nodup_listListing (n : Nat) :
    ∀ steps : List Step, ((Step.listListing n steps).map Occurrence.place).Nodup
  | [] => List.nodup_nil
  | step :: rest => by
      have hstep := Occurrence.nodup_map_behind (.nth n) (Step.nodup_listing step)
      have hrest := Step.nodup_listListing (n + 1) rest
      rw [Occurrence.map_place_behind] at hstep
      rw [Step.listListing, List.map_append, Occurrence.map_place_behind, List.nodup_append']
      refine ⟨hstep, hrest, ?_⟩
      -- the steps of the rest stand at later positions
      intro place hs hr
      obtain ⟨inner, -, rfl⟩ := List.mem_map.mp hs
      obtain ⟨o, ho, heq⟩ := List.mem_map.mp hr
      obtain ⟨k, turns, hk, hplace⟩ := Step.place_of_mem_listListing ho
      rw [hplace] at heq
      cases (List.cons.inj heq).1
      exact absurd hk (Nat.not_succ_le_self n)

end

-- ============================================================ executions

/-- A step that is executed, and the machine when it begins. -/
structure Execution where
  occurrence : Occurrence
  machine : Machine

namespace Execution

/-- Where the executed step is written. -/
def place (x : Execution) : Place := x.occurrence.place

/-- The step that is executed. -/
def step (x : Execution) : Step := x.occurrence.step

/-- The moment at which the step begins. -/
def moment (x : Execution) : Moment := .step x.machine

/-- The execution as seen from a condition around it, behind the turn taken there. -/
def behind (turn : Turn) (x : Execution) : Execution :=
  { x with occurrence := x.occurrence.behind turn }

end Execution

/-- What has been done to the variables, the events and the world, the log left out. -/
def Machine.deeds (m : Machine) : Effects :=
  { m.effects with world := { m.world with log := [] } }

/-- What the step itself leaves done; a condition does nothing, and what is in its branches
does it on its own. -/
def Execution.leaves (x : Execution) : Effects :=
  match x.step with
  | .action _ a => (a.perform x.machine).1.deeds
  | .branch .. => x.machine.deeds

/-- Done one after another: the executions lead from the first deeds to the last. -/
inductive Execution.Lead : Effects → List Execution → Effects → Prop
  | nil {fx : Effects} : Lead fx [] fx
  | cons {x : Execution} {later : List Execution} {fx : Effects} :
      Lead x.leaves later fx → Lead x.machine.deeds (x :: later) fx

mutual

/-- What is executed when a step is performed, in order. -/
def Step.executions : Step → Machine → List Execution
  | .action call a, m => [⟨⟨[], .action call a⟩, m⟩]
  | .branch call condition zero one, m =>
    ⟨⟨[], .branch call condition zero one⟩, m⟩ :: match m.decide condition with
      | (none, _) => []
      | (some .halt, _) => []
      | (some .goto0, m) => (Step.enterExecutions zero m).map (.behind .zero)
      | (some .goto1, m) => (Step.enterExecutions one m).map (.behind .one)

/-- The executions of a branch; none where the limit does not let it be entered. -/
def Step.enterExecutions : Option (List Step) → Machine → List Execution
  | none, _ => []
  | some steps, m =>
    if m.atLimit then [] else Step.walkExecutions 0 steps { m with depth := m.depth + 1 }

/-- What is executed when steps are walked, the first of which has the position `n`. -/
def Step.walkExecutions (n : Nat) : List Step → Machine → List Execution
  | [], _ => []
  | step :: rest, m =>
    (Step.executions step (m.begin step.call)).map (.behind (.nth n))
      ++ if (m.after step).stopped then [] else Step.walkExecutions (n + 1) rest (m.after step)

end

/-- What is executed in a run on an event; nothing when nothing runs. -/
def Machine.executions (m : Machine) (event : Option Json) : List Execution :=
  if m.status ≠ .idle then []
  else match m.program with
    | none => []
    | some p => Step.enterExecutions (some p.steps) (m.start p event)

/-- Whether a step begins at the moment. -/
def Moment.isStep : Moment → Bool
  | step _ => true
  | enter _ => false

variable {m : Machine}

/-- A condition is executed, and then nothing more, or what is executed in one of its
branches. -/
theorem Step.executions_branch_cases {call : Call} {condition : Condition}
    {zero one : Option (List Step)} {P : List Execution → List Moment → Effects → Prop}
    (alone : P [⟨⟨[], .branch call condition zero one⟩, m⟩] [.step m] m.deeds)
    (inZero : P
      (⟨⟨[], .branch call condition zero one⟩, m⟩
        :: (Step.enterExecutions zero (m.decide condition).2).map (.behind .zero))
      (.step m :: Step.enterMoments zero (m.decide condition).2)
      (Step.enter? zero (m.decide condition).2).1.deeds)
    (inOne : P
      (⟨⟨[], .branch call condition zero one⟩, m⟩
        :: (Step.enterExecutions one (m.decide condition).2).map (.behind .one))
      (.step m :: Step.enterMoments one (m.decide condition).2)
      (Step.enter? one (m.decide condition).2).1.deeds) :
    P (Step.executions (.branch call condition zero one) m)
      (Step.moments (.branch call condition zero one) m)
      (Step.perform (.branch call condition zero one) m).1.deeds := by
  have hdeeds : (m.decide condition).2.deeds = m.deeds := rfl
  unfold Step.executions Step.moments Step.perform
  revert hdeeds inZero inOne
  rcases m.decide condition with ⟨directive, m'⟩
  intro inZero inOne hdeeds
  rw [← hdeeds] at alone
  cases directive with
  | none => exact alone
  | some d =>
      cases d with
      | goto0 => exact inZero
      | goto1 => exact inOne
      | halt => exact alone

-- ======================================================= in written order

theorem Execution.map_occurrence_behind (turn : Turn) (l : List Execution) :
    (l.map (.behind turn)).map Execution.occurrence
      = (l.map Execution.occurrence).map (.behind turn) := by
  rw [List.map_map, List.map_map]
  rfl

/-- A turn in front of executions does not change their moments. -/
theorem Execution.map_moment_behind (turn : Turn) (l : List Execution) :
    (l.map (.behind turn)).map Execution.moment = l.map Execution.moment := by
  rw [List.map_map]
  rfl

mutual

/-- What a step executes is listed of it, in the same order. -/
theorem Step.executions_sublist : ∀ (s : Step) (m : Machine),
    ((s.executions m).map Execution.occurrence).Sublist s.listing
  | .action _ _, _ => .refl _
  | .branch call condition zero one, m => by
      have hzero := (Step.enterExecutions_sublist zero (m.decide condition).2).map
        (Occurrence.behind .zero)
      have hone := (Step.enterExecutions_sublist one (m.decide condition).2).map
        (Occurrence.behind .one)
      rw [← Execution.map_occurrence_behind] at hzero hone
      refine Step.executions_branch_cases (P := fun xs _ _ => (xs.map Execution.occurrence).Sublist
        (Step.listing (.branch call condition zero one))) ?_ ?_ ?_
      · exact .cons_cons _ (List.nil_sublist _)
      · exact .cons_cons _ (hzero.trans (List.sublist_append_left _ _))
      · exact .cons_cons _ (hone.trans (List.sublist_append_right _ _))

theorem Step.enterExecutions_sublist : ∀ (branch : Option (List Step)) (m : Machine),
    ((Step.enterExecutions branch m).map Execution.occurrence).Sublist (Step.branchListing branch)
  | none, _ => .refl _
  | some steps, m => by
      have hwalk := Step.walkExecutions_sublist 0 steps { m with depth := m.depth + 1 }
      unfold Step.enterExecutions
      split
      · exact List.nil_sublist _
      · exact hwalk

/-- What a list of steps executes is in the order of its listing; what is left out was not fired,
or stands behind a stop. -/
theorem Step.walkExecutions_sublist (n : Nat) : ∀ (steps : List Step) (m : Machine),
    ((Step.walkExecutions n steps m).map Execution.occurrence).Sublist (Step.listListing n steps)
  | [], _ => .refl _
  | step :: rest, m => by
      have hstep := (Step.executions_sublist step (m.begin step.call)).map
        (Occurrence.behind (.nth n))
      have hrest := Step.walkExecutions_sublist (n + 1) rest (m.after step)
      rw [← Execution.map_occurrence_behind] at hstep
      rw [Step.walkExecutions, Step.listListing, List.map_append]
      refine hstep.append ?_
      split
      · exact List.nil_sublist _
      · exact hrest

end

mutual

/-- The executions are those of the moments at which a step begins. -/
theorem Step.executions_moments : ∀ (s : Step) (m : Machine),
    (s.executions m).map Execution.moment = (s.moments m).filter Moment.isStep
  | .action _ _, _ => rfl
  | .branch call condition zero one, m => by
      have hzero := Step.enterExecutions_moments zero (m.decide condition).2
      have hone := Step.enterExecutions_moments one (m.decide condition).2
      rw [← Execution.map_moment_behind .zero] at hzero
      rw [← Execution.map_moment_behind .one] at hone
      exact Step.executions_branch_cases
        (P := fun xs told _ => xs.map Execution.moment = told.filter Moment.isStep)
        rfl (congrArg (Moment.step m :: ·) hzero) (congrArg (Moment.step m :: ·) hone)

/-- The executions of a branch are its moments at which a step begins. -/
theorem Step.enterExecutions_moments : ∀ (branch : Option (List Step)) (m : Machine),
    (Step.enterExecutions branch m).map Execution.moment
      = (Step.enterMoments branch m).filter Moment.isStep
  | none, _ => rfl
  | some steps, m => by
      have hwalk := Step.walkExecutions_moments 0 steps { m with depth := m.depth + 1 }
      unfold Step.enterExecutions Step.enterMoments
      cases m.atLimit with
      | true => rfl
      | false => exact hwalk

/-- The executions of a list of steps are its moments of steps. -/
theorem Step.walkExecutions_moments (n : Nat) : ∀ (steps : List Step) (m : Machine),
    (Step.walkExecutions n steps m).map Execution.moment
      = (Step.walkMoments steps m).filter Moment.isStep
  | [], _ => rfl
  | step :: rest, m => by
      have hstep := Step.executions_moments step (m.begin step.call)
      have hrest := Step.walkExecutions_moments (n + 1) rest (m.after step)
      rw [Step.walkExecutions, Step.walkMoments, List.map_append, List.filter_append,
        Execution.map_moment_behind, hstep]
      cases (m.after step).stopped with
      | true => rfl
      | false => exact congrArg _ hrest

end

-- ========================================================= what is done

namespace Execution.Lead

variable {xs ys : List Execution} {fx fx' fx'' : Effects}

/-- Two stretches of executions, the second from where the first leads, are one. -/
theorem append (h : Lead fx xs fx') (h' : Lead fx' ys fx'') : Lead fx (xs ++ ys) fx'' := by
  induction h with
  | nil => exact h'
  | cons _ ih => exact .cons (ih h')

/-- Seen from further out, the same is done. -/
theorem behind (turn : Turn) (h : Lead fx xs fx') : Lead fx (xs.map (.behind turn)) fx' := by
  induction h with
  | nil => exact .nil
  | @cons x _ _ _ ih => exact .cons (x := x.behind turn) ih

end Execution.Lead

/-- A run is concluded in the log, and nothing more is done. -/
theorem Machine.conclude_deeds (m : Machine) (error : Option RunError) :
    (m.conclude error).deeds = m.deeds := by
  cases error <;> rfl

/-- What is done behind a step is what the step does. -/
theorem Machine.after_deeds (m : Machine) (step : Step) :
    (m.after step).deeds = (step.perform (m.begin step.call)).1.deeds := by
  unfold Machine.after
  rcases step.perform (m.begin step.call) with ⟨m', error⟩
  cases error <;> rfl

mutual

/-- A step does what is executed when it is performed. -/
theorem Step.executions_lead : ∀ (s : Step) (m : Machine),
    Execution.Lead m.deeds (s.executions m) (s.perform m).1.deeds
  | .action call a, m => .cons (x := ⟨⟨[], .action call a⟩, m⟩) .nil
  | .branch call condition zero one, m => by
      have hzero := (Step.enterExecutions_lead zero (m.decide condition).2).behind .zero
      have hone := (Step.enterExecutions_lead one (m.decide condition).2).behind .one
      exact Step.executions_branch_cases (P := fun xs _ fx => Execution.Lead m.deeds xs fx)
        (.cons (x := ⟨⟨[], .branch call condition zero one⟩, m⟩) .nil)
        (.cons (x := ⟨⟨[], .branch call condition zero one⟩, m⟩) hzero)
        (.cons (x := ⟨⟨[], .branch call condition zero one⟩, m⟩) hone)

/-- The executions of a branch lead from what was done before to what is done behind it. -/
theorem Step.enterExecutions_lead : ∀ (branch : Option (List Step)) (m : Machine),
    Execution.Lead m.deeds (Step.enterExecutions branch m) (Step.enter? branch m).1.deeds
  | none, _ => .nil
  | some steps, m => by
      have hwalk := Step.walkExecutions_lead 0 steps { m with depth := m.depth + 1 }
      unfold Step.enterExecutions Step.enter?
      cases m.atLimit with
      | true => exact .nil
      | false => exact hwalk

/-- The deeds of a list of steps go from each execution to the next. -/
theorem Step.walkExecutions_lead (n : Nat) : ∀ (steps : List Step) (m : Machine),
    Execution.Lead m.deeds (Step.walkExecutions n steps m) (Step.walk steps m).deeds
  | [], _ => .nil
  | step :: rest, m => by
      have hstep := (Step.executions_lead step (m.begin step.call)).behind (.nth n)
      have hrest := Step.walkExecutions_lead (n + 1) rest (m.after step)
      rw [← m.after_deeds] at hstep
      rw [Step.walkExecutions, Step.walk_cons]
      cases (m.after step).stopped with
      | true => exact hstep.append .nil
      | false => exact hstep.append hrest

end

-- ================================================= one branch, and the stack

/-- No two of the places are in different branches of one condition. -/
def OneBranch (places : List Place) : Prop :=
  ∀ x ∈ places, ∀ y ∈ places, ∀ condition : Place,
    condition ++ [.zero] <+: x → ¬ condition ++ [.one] <+: y

namespace OneBranch

variable {places later : List Place}

/-- The place where all begin is in no branch. -/
theorem cons_nil (h : OneBranch places) : OneBranch ([] :: places) := by
  intro x hx y hy condition hzero hone
  cases hx with
  | head => simp at hzero
  | tail _ hx =>
      cases hy with
      | head => simp at hone
      | tail _ hy => exact h x hx y hy condition hzero hone

/-- Behind a turn there is still one branch of each condition. -/
theorem map_cons (turn : Turn) (h : OneBranch places) : OneBranch (places.map (turn :: ·)) := by
  intro x hx y hy condition hzero hone
  obtain ⟨x', hx', rfl⟩ := List.mem_map.mp hx
  obtain ⟨y', hy', rfl⟩ := List.mem_map.mp hy
  cases condition with
  | nil =>
      cases (List.cons_prefix_cons.mp hzero).1
      cases (List.cons_prefix_cons.mp hone).1
  | cons t condition =>
      exact h x' hx' y' hy' condition (List.cons_prefix_cons.mp hzero).2
        (List.cons_prefix_cons.mp hone).2

/-- Steps at different positions of a list are in no condition together. -/
theorem not_in_one {i j : Nat} (hne : i ≠ j) {xs ys condition : Place}
    (hzero : condition ++ [.zero] <+: .nth i :: xs) : ¬ condition ++ [.one] <+: .nth j :: ys := by
  intro hone
  cases condition with
  | nil => cases (List.cons_prefix_cons.mp hzero).1
  | cons t condition =>
      cases (List.cons_prefix_cons.mp hzero).1
      cases (List.cons_prefix_cons.mp hone).1
      exact hne rfl

/-- What is inside one position of a list goes together with what is at later ones. -/
theorem append (h : OneBranch places) (hlater : OneBranch later) {n : Nat}
    (hat : ∀ x ∈ places, ∃ rest, x = .nth n :: rest)
    (hbehind : ∀ y ∈ later, ∃ k rest, n < k ∧ y = .nth k :: rest) :
    OneBranch (places ++ later) := by
  intro x hx y hy condition hzero hone
  rcases List.mem_append.mp hx with hx | hx
  · rcases List.mem_append.mp hy with hy | hy
    · exact h x hx y hy condition hzero hone
    · obtain ⟨xs, rfl⟩ := hat x hx
      obtain ⟨k, ys, hk, rfl⟩ := hbehind y hy
      exact not_in_one (Nat.ne_of_lt hk) hzero hone
  · rcases List.mem_append.mp hy with hy | hy
    · obtain ⟨k, xs, hk, rfl⟩ := hbehind x hx
      obtain ⟨ys, rfl⟩ := hat y hy
      exact not_in_one (Nat.ne_of_gt hk) hzero hone
    · exact hlater x hx y hy condition hzero hone

end OneBranch

theorem Execution.map_place_behind (turn : Turn) (l : List Execution) :
    (l.map (.behind turn)).map Execution.place = (l.map Execution.place).map (turn :: ·) := by
  rw [List.map_map, List.map_map]
  rfl

/-- What is executed in a list of steps is at the positions of the list. -/
theorem Step.place_of_mem_walkExecutions {n : Nat} {steps : List Step} {x : Execution}
    (h : x ∈ Step.walkExecutions n steps m) : ∃ k rest, n ≤ k ∧ x.place = .nth k :: rest :=
  Step.place_of_mem_listListing
    ((Step.walkExecutions_sublist n steps m).subset (List.mem_map_of_mem h))

mutual

/-- A step executes one branch of each condition in it. -/
theorem Step.executions_oneBranch : ∀ (s : Step) (m : Machine),
    OneBranch ((s.executions m).map Execution.place)
  | .action _ _, _ => OneBranch.cons_nil fun _ hx => by cases hx
  | .branch call condition zero one, m => by
      have hzero := (Step.enterExecutions_oneBranch zero (m.decide condition).2).map_cons .zero
      have hone := (Step.enterExecutions_oneBranch one (m.decide condition).2).map_cons .one
      rw [← Execution.map_place_behind] at hzero hone
      exact Step.executions_branch_cases (P := fun xs _ _ => OneBranch (xs.map Execution.place))
        (OneBranch.cons_nil fun _ hx => by cases hx) hzero.cons_nil hone.cons_nil

theorem Step.enterExecutions_oneBranch : ∀ (branch : Option (List Step)) (m : Machine),
    OneBranch ((Step.enterExecutions branch m).map Execution.place)
  | none, _ => fun _ hx => by cases hx
  | some steps, m => by
      have hwalk := Step.walkExecutions_oneBranch 0 steps { m with depth := m.depth + 1 }
      unfold Step.enterExecutions
      split
      · exact fun _ hx => by cases hx
      · exact hwalk

/-- Steps of one list differ in their first turn, so only those within one step can disagree on a
branch. -/
theorem Step.walkExecutions_oneBranch (n : Nat) : ∀ (steps : List Step) (m : Machine),
    OneBranch ((Step.walkExecutions n steps m).map Execution.place)
  | [], _ => fun _ hx => by cases hx
  | step :: rest, m => by
      have hstep := (Step.executions_oneBranch step (m.begin step.call)).map_cons (.nth n)
      have hrest := Step.walkExecutions_oneBranch (n + 1) rest (m.after step)
      rw [Step.walkExecutions, List.map_append, Execution.map_place_behind]
      split
      · rw [List.map_nil, List.append_nil]
        exact hstep
      · refine OneBranch.append (n := n) hstep hrest ?_ ?_
        · intro place hplace
          obtain ⟨inner, -, rfl⟩ := List.mem_map.mp hplace
          exact ⟨inner, rfl⟩
        · intro place hplace
          obtain ⟨x, hx, rfl⟩ := List.mem_map.mp hplace
          exact Step.place_of_mem_walkExecutions hx

end

/-- The machine is the one on which the step begins: its call is on top of the stack. -/
def Execution.Begun (x : Execution) : Prop := x.machine.stack.top? = some x.step.call

/-- What begins as it should does so behind a turn. -/
theorem Execution.begun_behind (turn : Turn) {l : List Execution} (h : ∀ x ∈ l, x.Begun) :
    ∀ x ∈ l.map (Execution.behind turn), x.Begun := by
  intro x hx
  obtain ⟨inner, hinner, rfl⟩ := List.mem_map.mp hx
  exact h inner hinner

mutual

/-- Every step that is executed in a step begins with its call on the stack. -/
theorem Step.executions_begun : ∀ (s : Step) (m : Machine),
    ∀ x ∈ s.executions (m.begin s.call), x.Begun
  | .action _ _, _ => by
      intro x hx
      cases List.mem_singleton.mp hx
      rfl
  | .branch call condition zero one, m => by
      have hzero := Step.enterExecutions_begun zero ((m.begin call).decide condition).2
      have hone := Step.enterExecutions_begun one ((m.begin call).decide condition).2
      have hhead : Execution.Begun ⟨⟨[], .branch call condition zero one⟩, m.begin call⟩ := rfl
      exact Step.executions_branch_cases (P := fun xs _ _ => ∀ x ∈ xs, x.Begun)
        (List.forall_mem_singleton.mpr hhead)
        (List.forall_mem_cons.mpr ⟨hhead, Execution.begun_behind .zero hzero⟩)
        (List.forall_mem_cons.mpr ⟨hhead, Execution.begun_behind .one hone⟩)

theorem Step.enterExecutions_begun : ∀ (branch : Option (List Step)) (m : Machine),
    ∀ x ∈ Step.enterExecutions branch m, x.Begun
  | none, _ => by
      intro x hx
      cases hx
  | some steps, m => by
      have hwalk := Step.walkExecutions_begun 0 steps { m with depth := m.depth + 1 }
      unfold Step.enterExecutions
      split
      · intro x hx
        cases hx
      · exact hwalk

theorem Step.walkExecutions_begun (n : Nat) : ∀ (steps : List Step) (m : Machine),
    ∀ x ∈ Step.walkExecutions n steps m, x.Begun
  | [], _ => by
      intro x hx
      cases hx
  | step :: rest, m => by
      have hstep := Execution.begun_behind (.nth n) (Step.executions_begun step m)
      have hrest := Step.walkExecutions_begun (n + 1) rest (m.after step)
      intro x hx
      rw [Step.walkExecutions] at hx
      rcases List.mem_append.mp hx with hx | hx
      · exact hstep x hx
      · split at hx
        case isTrue => cases hx
        case isFalse => exact hrest x hx

end

-- ================================================================ the runs

namespace Machine

/-- Nothing is executed in a run that does not begin; in one that does, what its program has
executed when it is entered. -/
theorem executions_cases {p : Program} (hp : m.program = some p) (event : Option Json) :
    (m.executions event = [] ∧ m.moments event = [] ∧ m.status ≠ .idle)
      ∨ (m.executions event = Step.enterExecutions (some p.steps) (m.start p event)
        ∧ m.moments event = Step.enterMoments (some p.steps) (m.start p event)
        ∧ m.execute event = ending (Step.enter? (some p.steps) (m.start p event))) := by
  unfold executions moments execute
  rw [hp]
  by_cases hidle : m.status ≠ .idle
  · rw [if_pos hidle, if_pos hidle]
    exact Or.inl ⟨rfl, rfl, hidle⟩
  · rw [if_neg hidle, if_neg hidle, if_neg hidle]
    exact Or.inr ⟨rfl, rfl, rfl⟩

/-- What is executed in a run are steps of its program, in the order they are listed. -/
theorem executions_sublist_listing {p : Program} (hp : m.program = some p)
    (event : Option Json) :
    ((m.executions event).map Execution.occurrence).Sublist p.listing := by
  rcases executions_cases hp event with ⟨hnone, -, -⟩ | ⟨hruns, -, -⟩
  · rw [hnone]
    exact List.nil_sublist _
  · rw [hruns]
    exact Step.enterExecutions_sublist (some p.steps) (m.start p event)

/-- The executions of a run are told in the order of the program as it is written: they are
its listing, depth first, with steps left out. No place of the program is executed twice, and
of the branches of a condition only one, so a run executes no more steps than the program
has calls. They are all the steps that begin during the run, and each begins with its call on
top of the stack; one after another, they do what the run does. -/
theorem executions_in_written_order {p : Program} (hp : m.program = some p)
    (event : Option Json) :
    ((m.executions event).map Execution.occurrence).Sublist p.listing
      ∧ ((m.executions event).map Execution.place).Nodup
      ∧ OneBranch ((m.executions event).map Execution.place)
      ∧ (m.executions event).length ≤ p.callCount
      ∧ (m.executions event).map Execution.moment = (m.moments event).filter Moment.isStep
      ∧ (∀ x ∈ m.executions event, x.Begun)
      ∧ (m.status = .idle →
        Execution.Lead (m.start p event).deeds (m.executions event) (m.execute event).2.deeds) := by
  -- without a run there are no executions at all
  rcases executions_cases hp event with ⟨hnone, htold, hidle⟩ | ⟨hruns, htold, hends⟩
  · rw [hnone, htold]
    refine ⟨List.nil_sublist _, List.nodup_nil, ?_, Nat.zero_le _, rfl, ?_, ?_⟩
    · intro x hx
      cases hx
    · intro x hx
      cases hx
    · intro h
      exact absurd h hidle
  · rw [hruns, htold, hends, ending_snd]
    have hsublist := Step.enterExecutions_sublist (some p.steps) (m.start p event)
    -- the places of a program differ, and so do those of a part of its listing
    have hnodup := (hsublist.map Occurrence.place).nodup (Step.nodup_listListing 0 p.steps)
    rw [List.map_map] at hnodup
    have hlength := hsublist.length_le
    rw [List.length_map, Step.length_branchListing] at hlength
    have hlead := Step.enterExecutions_lead (some p.steps) (m.start p event)
    refine ⟨hsublist, hnodup, Step.enterExecutions_oneBranch (some p.steps) _, hlength,
      Step.enterExecutions_moments (some p.steps) _, Step.enterExecutions_begun (some p.steps) _,
      ?_⟩
    intro
    rw [conclude_deeds]
    exact hlead

end Machine

/-- The same call four times: before a condition that goes to its second branch, in each of
the branches, where the second halts behind it, and after the condition. -/
def Program.haltedInside : Program :=
  let watch : Step := .action ⟨"watch", none⟩ (.hook fun g _ => { globals := g })
  let onFalse (d : Condition.Directive) : Condition :=
    { all := none, any := none, onTrue := none, onFalse := some d }
  let halt : Step := .branch ⟨Condition.name, none⟩ (onFalse .halt) none none
  ⟨[watch, .branch ⟨Condition.name, none⟩ (onFalse .goto1) (some [watch]) (some [watch, halt]),
    watch]⟩

/-- Of its six calls four are executed, in their order. -/
theorem haltedInside_in_written_order :
    let m := (Machine.new {} {}).load Program.haltedInside { id := "1" }
    m.program = some Program.haltedInside
      ∧ (m.executions none).map Execution.place
        = [[.nth 0], [.nth 1], [.nth 1, .one, .nth 0], [.nth 1, .one, .nth 1]]
      ∧ ((m.executions none).map Execution.occurrence).Sublist Program.haltedInside.listing
      ∧ Program.haltedInside.callCount = 6
      ∧ (m.executions none).length ≤ Program.haltedInside.callCount
      ∧ Execution.Lead (m.start Program.haltedInside none).deeds (m.executions none)
        (m.execute none).2.deeds := by
  intro m
  obtain ⟨hsublist, -, -, hlength, -, -, hlead⟩ :=
    Machine.executions_in_written_order (m := m) rfl none
  exact ⟨rfl, rfl, hsublist, rfl, hlength, hlead rfl⟩

end EventScript
