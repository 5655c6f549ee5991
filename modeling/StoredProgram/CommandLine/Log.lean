import StoredProgram.Instruction
import StoredProgram.Registers

set_option autoImplicit false

namespace StoredProgram.Log

open Text

inductive Severity where
  | error
  | info
  | debug
  | trace
deriving DecidableEq, Repr

def Severity.name : Severity → String
  | .error => "ERROR"
  | .info => "INFO"
  | .debug => "DEBUG"
  | .trace => "TRACE"

inductive Level where
  | off
  | warn
  | info
  | debug
  | trace
deriving DecidableEq, Repr

namespace Level

def name : Level → String
  | .off => "off"
  | .warn => "warn"
  | .info => "info"
  | .debug => "debug"
  | .trace => "trace"

def shows : Level → Severity → Bool
  | .off, _ => false
  | .warn, severity => severity = .error
  | .info, severity => severity = .error || severity = .info
  | .debug, severity => severity ≠ .trace
  | .trace, _ => true

end Level

inductive Entry where
  | loadedProgram (path : String) (length : Nat)
  | startingMachine (limit : Option Nat)
  | execute (pc : Nat) (instruction : Instruction) (flag : Flag)
  | machineStopped (pc : Nat) (fault : Fault)
  | finalState (steps : Nat) (flag : Flag) (registers : Registers)
deriving DecidableEq, Repr

def byteList (bytes : List Byte) : String :=
  "[" ++ ", ".intercalate (bytes.map fun byte => decimal byte.toNat) ++ "]"

def limitText : Option Nat → String
  | none => "None"
  | some limit => "Some(" ++ decimal limit ++ ")"

namespace Entry

def severity : Entry → Severity
  | .loadedProgram .. => .debug
  | .startingMachine _ => .debug
  | .execute .. => .trace
  | .machineStopped .. => .error
  | .finalState .. => .info

def message : Entry → String
  | .loadedProgram path length => "loaded program path=" ++ path ++ " bytes=" ++ decimal length
  | .startingMachine limit => "starting machine max_steps=" ++ limitText limit
  | .execute pc instruction flag =>
      "execute pc=" ++ decimal pc ++ " instruction=" ++ instruction.text ++ " flags=" ++ flag.name
  | .machineStopped pc fault => "machine stopped pc=" ++ decimal pc ++ " fault=" ++ fault.message
  | .finalState steps flag registers =>
      "final state steps=" ++ decimal steps ++ " flags=" ++ flag.name ++
        " registers=" ++ byteList registers.cells

def text (entry : Entry) : String :=
  entry.severity.name ++ " " ++ entry.message

end Entry

def filter (level : Level) (entries : List Entry) : List Entry :=
  entries.filter fun entry => level.shows entry.severity

theorem filter_trace (entries : List Entry) : filter .trace entries = entries :=
  List.filter_eq_self.mpr fun _ _ => rfl

end StoredProgram.Log
