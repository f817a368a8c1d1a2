/-
A stack of frames. `toList` shows it from the bottom to the top; every operation is stated
by what it does to that list.
-/

namespace EventScript

/-- A stack, kept with its top first. -/
structure CallStack (α : Type) where
  frames : List α := []

namespace CallStack

variable {α : Type}

/-- The stack without frames. -/
def empty : CallStack α := {}

/-- The stack with a frame on top of it. -/
def push (s : CallStack α) (frame : α) : CallStack α := ⟨frame :: s.frames⟩

/-- The stack without its top; an empty stack stays empty. -/
def pop (s : CallStack α) : CallStack α := ⟨s.frames.tail⟩

/-- The top. -/
def top? (s : CallStack α) : Option α := s.frames.head?

/-- The number of frames. -/
def size (s : CallStack α) : Nat := s.frames.length

/-- Whether there is no frame. -/
def isEmpty (s : CallStack α) : Bool := s.frames.isEmpty

/-- The frames from the bottom to the top. -/
def toList (s : CallStack α) : List α := s.frames.reverse

@[simp] theorem toList_empty : (empty : CallStack α).toList = [] := rfl

@[simp] theorem toList_push (s : CallStack α) (a : α) : (s.push a).toList = s.toList ++ [a] := by
  simp [push, toList]

@[simp] theorem pop_push (s : CallStack α) (a : α) : (s.push a).pop = s := rfl

@[simp] theorem size_eq_length (s : CallStack α) : s.size = s.toList.length := by
  simp [size, toList]

end CallStack
end EventScript
