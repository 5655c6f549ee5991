import StoredProgram.Failure
import StoredProgram.Machine.Run
import StoredProgram.Machine.Table
import StoredProgram.Program.Source

set_option autoImplicit false

namespace StoredProgram

structure Report where
  machine : Machine
  failure : Option Failure
deriving DecidableEq, Repr

namespace Report

def ofReplacement (before : Machine) : Except LoadError Machine → Report
  | .ok after => ⟨after, none⟩
  | .error error => ⟨before, some (.unloadable error)⟩

def ofLoad (before : Machine) (load : Attempt LoadError Machine Unit) : Report :=
  match load.run before with
  | .ok () after => ⟨after, none⟩
  | .error error after => ⟨after, some (.unloadable error)⟩

def ofStep (before : Machine) : Report :=
  match Machine.step.run before with
  | .ok () after => ⟨after, none⟩
  | .error fault after => ⟨after, some (.stopped fault)⟩

def ofStop (stop : Stop Machine) : Report :=
  ⟨stop.state, some (.stopped stop.fault)⟩

end Report

inductive Command where
  | new
  | withProgram (image : List Byte)
  | load (image : List Byte)
  | loadText (text : String)
  | step
  | steps (count : Nat)
  | run
  | runFor (limit : Nat)
  | display
deriving DecidableEq, Repr

inductive Reply where
  | report (report : Report)
  | reports (reports : List Report)
  | table (text : String)
deriving DecidableEq, Repr

def Machine.loadText (text : String) : Attempt LoadError Machine Unit := do
  let image ← Program.parse text
  load image

namespace Command

def perform (machine : Machine) : Command → Option (Machine × Reply)
  | .new => reportOn ⟨Machine.fresh, none⟩
  | .withProgram image => reportOn (.ofReplacement machine (Machine.withProgram image))
  | .load image => reportOn (.ofLoad machine (Machine.load image))
  | .loadText text => reportOn (.ofLoad machine (Machine.loadText text))
  | .step => reportOn (.ofStep machine)
  | .steps count =>
      some ((Machine.step.advance count machine).1, .reports ((machine.attempts count).map .ofStep))
  | .run => machine.run.bind fun stop => reportOn (.ofStop stop)
  | .runFor limit => reportOn (.ofStop (machine.runFor limit))
  | .display => some (machine, .table machine.table)
where
  reportOn (report : Report) : Option (Machine × Reply) :=
    some (report.machine, .report report)

end Command

namespace Session

def replies (machine : Machine) : List Command → List Reply
  | [] => []
  | command :: following =>
      match command.perform machine with
      | some (next, reply) => reply :: replies next following
      | none => []

def machineAfter (machine : Machine) : List Command → Option Machine
  | [] => some machine
  | command :: following =>
      match command.perform machine with
      | some (next, _) => machineAfter next following
      | none => none

end Session

end StoredProgram
