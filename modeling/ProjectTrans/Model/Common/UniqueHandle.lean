import Mathlib.Algebra.Order.Ring.Int
import Mathlib.Logic.Function.Basic
import Mathlib.Tactic.Common

/-!
# Handles that own a descriptor (`common/handle/unique_handle`)

Any number of handles, each alive or not; a live one has its `m_handle`, negative when it
owns nothing. The log says what happens to descriptors: that the system gives one to the
program, that a handle takes it over, gives it up or closes it, and that the program closes
one itself.
-/

namespace ProjectTrans

/-- What happens to a descriptor. -/
inductive HandleEvent
  | opened (descriptor : ℤ)
  | adopted (descriptor : ℤ)
  | released (descriptor : ℤ)
  | closed (descriptor : ℤ)
  | dropped (descriptor : ℤ)
  deriving DecidableEq, Repr

/-- The handles of a program. -/
structure UniqueHandles (ι : Type*) where
  handles : ι → Option ℤ := fun _ => none
  log : List HandleEvent := []

namespace UniqueHandles

variable {ι : Type*}

/-- What is done with the handles; `opened` and `dropped` are the program's own calls. -/
inductive Op (ι : Type*)
  | opened (descriptor : ℤ)
  | dropped (descriptor : ℤ)
  | construct (i : ι)
  | adopt (i : ι) (handle : ℤ)
  | moveConstruct (i other : ι)
  | moveAssign (i other : ι)
  | reset (i : ι) (newHandle : ℤ)
  | release (i : ι)
  | destroy (i : ι)
  deriving DecidableEq

/-- `close`: a negative handle is left alone. -/
def close (handle : ℤ) : List HandleEvent := if handle < 0 then [] else [.closed handle]

/-- That a handle takes a descriptor over; a negative one is none. -/
def adopted (handle : ℤ) : List HandleEvent := if handle < 0 then [] else [.adopted handle]

/-- That a handle gives its descriptor up. -/
def released (handle : ℤ) : List HandleEvent := if handle < 0 then [] else [.released handle]

variable [DecidableEq ι]

/-- One operation; what is not possible changes nothing. -/
def step (s : UniqueHandles ι) : Op ι → UniqueHandles ι
  | .opened descriptor => { s with log := s.log ++ [.opened descriptor] }
  | .dropped descriptor => { s with log := s.log ++ [.dropped descriptor] }
  | .construct i =>
    match s.handles i with
    | none => { s with handles := Function.update s.handles i (some (-1)) }
    | some _ => s
  | .adopt i handle =>
    match s.handles i with
    | none => ⟨Function.update s.handles i (some handle), s.log ++ adopted handle⟩
    | some _ => s
  | .moveConstruct i other =>
    match s.handles i, s.handles other with
    | none, some newHandle =>
      { s with handles := Function.update (Function.update s.handles other (some (-1))) i (some newHandle) }
    | _, _ => s
  | .moveAssign i other =>
    match s.handles i, s.handles other with
    | some _, some newHandle =>
      -- the source is emptied first, so on a self-move there is nothing to close
      let handles := Function.update s.handles other (some (-1))
      ⟨Function.update handles i (some newHandle), s.log ++ close ((handles i).getD (-1))⟩
    | _, _ => s
  | .reset i newHandle =>
    match s.handles i with
    | some handle => ⟨Function.update s.handles i (some newHandle), s.log ++ close handle ++ adopted newHandle⟩
    | none => s
  | .release i =>
    match s.handles i with
    | some handle => ⟨Function.update s.handles i (some (-1)), s.log ++ released handle⟩
    | none => s
  | .destroy i =>
    match s.handles i with
    | some handle => ⟨Function.update s.handles i none, s.log ++ close handle⟩
    | none => s

/-- No handle. -/
def init : UniqueHandles ι := {}

end UniqueHandles

end ProjectTrans
