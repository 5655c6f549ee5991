import StoredProgram.CommandLine.Console
import StoredProgram.Machine.Run
import StoredProgram.Machine.Table

set_option autoImplicit false

namespace StoredProgram.CommandLine

inductive Edition where
  | plain
  | traced
deriving DecidableEq, Repr

structure Process where
  machine : Machine
  console : Console
deriving DecidableEq, Repr

def executeEntry (machine : Machine) : Option Log.Entry :=
  match Instruction.decode machine.memory.cells machine.pc with
  | .ok instruction => some (.execute machine.pc instruction machine.flag)
  | .error _ => none

namespace Process

abbrev Action := Attempt Fault Process Unit

def onMachine (action : Machine.Action) : Action := fun process =>
  match action.run process.machine with
  | .ok () machine => .ok () { process with machine }
  | .error fault machine => .error fault { process with machine }

def onConsole (change : Machine → Console → Console) : Action :=
  modify fun process => { process with console := change process.machine process.console }

def announce (machine : Machine) (console : Console) : Console :=
  if console.level.shows .trace then
    match executeEntry machine with
    | some entry => console.record entry
    | none => console
  else console

def showState (machine : Machine) (console : Console) : Console :=
  console.printLine machine.table

def step (edition : Edition) : Action := do
  let machine := (← get).machine
  let byte ← machine.memory.read machine.pc
  match Opcode.ofByte? byte with
  | none => throw (.unknownOpcode byte (.memory machine.pc))
  | some opcode =>
      onConsole announce
      onMachine (Machine.operate opcode)
      onMachine (modify fun machine => { machine with steps := machine.steps + 1 })
      if edition = .traced then
        onConsole showState

end Process

end StoredProgram.CommandLine
