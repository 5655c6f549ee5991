import StoredProgram.CommandLine.Outcome

set_option autoImplicit false

namespace StoredProgram.CommandLine

def edition : Edition := .plain

-- A failure by its description and its code, which some calls report with the sign turned.
def systemFailure (description : String) (code : UInt32) : ReadFailure :=
  .system description.capitalize (if code < 0x80000000 then code else 0 - code).toNat

def readFailure : IO.Error → ReadFailure
  | .alreadyExists _ code details => systemFailure details code
  | .otherError code details => systemFailure details code
  | .resourceBusy code details => systemFailure details code
  | .resourceVanished code details => systemFailure details code
  | .unsupportedOperation code details => systemFailure details code
  | .hardwareFault code details => systemFailure details code
  | .unsatisfiedConstraints code details => systemFailure details code
  | .illegalOperation code details => systemFailure details code
  | .protocolError code details => systemFailure details code
  | .timeExpired code details => systemFailure details code
  | .interrupted _ code details => systemFailure details code
  | .noFileOrDirectory _ code details => systemFailure details code
  | .invalidArgument _ code details => systemFailure details code
  | .permissionDenied _ code details => systemFailure details code
  | .resourceExhausted _ code details => systemFailure details code
  | .inappropriateType _ code details => systemFailure details code
  | .noSuchThing _ code details => systemFailure details code
  | .unexpectedEof => systemFailure "unexpected end of file" 0
  | .userError details => systemFailure details 0

def readFile (path : String) : IO (Except ReadFailure ByteArray) := do
  try
    return .ok (← IO.FS.readBinFile path)
  catch error =>
    return .error (readFailure error)

def showEntries (entries : List Log.Entry) : IO Unit :=
  entries.forM fun entry => IO.eprintln entry.text

def showOutcome (outcome : Outcome) : IO UInt32 := do
  IO.print outcome.output
  showEntries outcome.log
  outcome.complaint.forM IO.eprintln
  return outcome.exitStatus.toUInt32

def showConsole (console : Console) : IO Unit := do
  IO.print console.output
  showEntries console.log.toList

partial def follow (level : Log.Level) (machine : Machine) : IO Unit := do
  match (Process.step edition).run ⟨machine, .opened level⟩ with
  | .error _ process => showConsole process.console
  | .ok () process =>
      showConsole process.console
      follow level process.machine

def endless? (files : Program.Files) (arguments : Arguments) : Option (List Byte × Machine) := do
  let image ← (Program.load files arguments.program).toOption
  let machine ← (Machine.withProgram image).toOption
  guard (!arguments.disassemble && arguments.maxSteps.isNone && machine.endless)
  return (image, machine)

def showEndless (arguments : Arguments) (image : List Byte) (machine : Machine) : IO Unit := do
  let banner := (Console.opened arguments.level).print edition.banner
  let loaded := banner.record (.loadedProgram arguments.program image.length)
  showConsole (loaded.record (.startingMachine arguments.maxSteps))
  follow arguments.level machine

def runProgram (arguments : List String) : IO UInt32 := do
  match Arguments.parse arguments with
  | .error refusal => showOutcome refusal.outcome
  | .ok request =>
      let content ← readFile request.program
      let files : Program.Files := fun _ => content
      if let some (image, machine) := endless? files request then
        showEndless request image machine
      match execute edition files request with
      | some outcome => showOutcome outcome
      | none => return 0

end StoredProgram.CommandLine

def main (arguments : List String) : IO UInt32 :=
  StoredProgram.CommandLine.runProgram arguments
