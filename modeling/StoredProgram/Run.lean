import StoredProgram.Attempt
import StoredProgram.Fault

set_option autoImplicit false

namespace StoredProgram

structure Stop (State : Type) where
  state : State
  fault : Fault
deriving DecidableEq, Repr

namespace Attempt

variable {State : Type} (step : Attempt Fault State Unit)

-- Steps until one of them faults. Where none ever does, there is no result.
def loop : StateT State Option Fault := fun state =>
  match step.run state with
  | .ok () next => loop.run next
  | .error fault after => some (fault, after)
partial_fixpoint

def advance : Nat → State → State × Option Fault
  | 0, state => (state, none)
  | budget + 1, state =>
      match step.run state with
      | .ok () next => advance budget next
      | .error fault after => (after, some fault)

-- The step after the last is not attempted.
def runFor (state : State) (limit : Nat) : Stop State :=
  match step.advance limit state with
  | (final, some fault) => ⟨final, fault⟩
  | (final, none) => ⟨final, .stepLimitReached limit⟩

def runWithin (state : State) : Option Nat → Option (Stop State)
  | some limit => some (step.runFor state limit)
  | none => (step.loop state).map fun (fault, after) => ⟨after, fault⟩

end Attempt

end StoredProgram
