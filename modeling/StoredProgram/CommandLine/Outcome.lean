import StoredProgram.CommandLine.Process
import StoredProgram.CommandLine.Usage
import StoredProgram.Failure
import StoredProgram.Listing
import StoredProgram.Program.Load

set_option autoImplicit false

namespace StoredProgram.CommandLine

open Text

structure Outcome where
  exitStatus : Nat
  output : String
  log : List Log.Entry
  complaint : Option String
deriving DecidableEq, Repr

def Edition.banner : Edition → String
  | .plain => ""
  | .traced => "Computation Tracing ENABLED\n"

def Refusal.outcome : Refusal → Outcome
  | .help => ⟨0, usageText, [], none⟩
  | .version => ⟨0, versionText, [], none⟩
  | _ => ⟨1, "", [], none⟩

def Console.outcome (console : Console) (failure : Option Failure) : Outcome where
  exitStatus := (failure.map Failure.exitStatus).getD 0
  output := console.output
  log := console.log.toList
  complaint := failure.map fun failure => "error: " ++ failure.message

def showListing (image : List Byte) (console : Console) : Console :=
  (listing image).foldl (fun console row => console.printLine row.text) console

def report (arguments : Arguments) (stop : Stop Process) : Console :=
  let machine := stop.state.machine
  let stopped := stop.state.console.record (.machineStopped machine.pc stop.fault)
  let final := stopped.record (.finalState machine.steps machine.flag machine.registers)
  if arguments.dumpState then final.printLine machine.table else final

-- Runs a machine as the arguments say, or `none` where the run never ends.
def start (edition : Edition) (arguments : Arguments) (machine : Machine) (console : Console) :
    Option Outcome := do
  let console := console.record (.startingMachine arguments.maxSteps)
  let stop ← (Process.step edition).runWithin ⟨machine, console⟩ arguments.maxSteps
  return (report arguments stop).outcome (some (.stopped stop.fault))

def execute (edition : Edition) (files : Program.Files) (arguments : Arguments) : Option Outcome :=
  let console := (Console.opened arguments.level).print edition.banner
  match Program.load files arguments.program with
  | .error error => some (console.outcome (some (.unloadable error)))
  | .ok image =>
      let console := console.record (.loadedProgram arguments.program image.length)
      if arguments.disassemble then
        some ((showListing image console).outcome none)
      else
        match Machine.withProgram image with
        | .error error => some (console.outcome (some (.unloadable error)))
        | .ok machine => start edition arguments machine console

def perform (edition : Edition) (files : Program.Files) (arguments : List String) : Option Outcome :=
  match Arguments.parse arguments with
  | .error refusal => some refusal.outcome
  | .ok arguments => execute edition files arguments

end StoredProgram.CommandLine
