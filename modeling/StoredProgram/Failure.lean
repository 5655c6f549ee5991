import StoredProgram.Fault
import StoredProgram.Program.LoadError

set_option autoImplicit false

namespace StoredProgram

inductive Failure where
  | unloadable (error : LoadError)
  | stopped (fault : Fault)
deriving DecidableEq, Repr

namespace Failure

def message : Failure → String
  | .unloadable error => error.message
  | .stopped fault => fault.message

def exitStatus : Failure → Nat
  | .unloadable (.programNotFound ..) => 2
  | .unloadable _ => 3
  | .stopped _ => 4

end Failure

end StoredProgram
