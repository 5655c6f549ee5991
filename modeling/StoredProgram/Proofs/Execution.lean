import StoredProgram.CommandLine.Outcome
import StoredProgram.Proofs.Observation
import StoredProgram.Proofs.RoundTrip

set_option autoImplicit false

namespace StoredProgram

open Text

namespace CommandLine

namespace Console

theorem outcome_extended (level : Log.Level) (text : String) (lines : List String) (entries : List Log.Entry)
    (failure : Option Failure) :
    (((opened level).print text).extended lines entries).outcome failure =
      { exitStatus := (failure.map Failure.exitStatus).getD 0
        output := text ++ unlines lines
        log := Log.filter level entries
        complaint := failure.map fun failure => "error: " ++ failure.message } := by
  simp [extended, opened, print, outcome]

end Console

theorem show_listing_extended (image : List Byte) (console : Console) :
    showListing image console = console.extended ((listing image).map Listing.Row.text) [] := by
  rw [showListing]
  induction listing image generalizing console with
  | nil => exact console.extended_nil.symm
  | cons row rows ih =>
      rw [List.foldl_cons, ih, Console.print_line_extended, Console.extended_extended]
      rfl

theorem report_extended (arguments : Arguments) (stop : Stop Process) :
    report arguments stop =
      stop.state.console.extended (if arguments.dumpState then [stop.state.machine.table] else [])
        [.machineStopped stop.state.machine.pc stop.fault,
          .finalState stop.state.machine.steps stop.state.machine.flag stop.state.machine.registers] := by
  simp only [report, Console.record_extended, Console.print_line_extended, Console.extended_extended]
  split <;> rfl

def listedOutcome (edition : Edition) (arguments : Arguments) (image : List Byte) : Outcome where
  exitStatus := 0
  output := edition.banner ++ unlines ((listing image).map Listing.Row.text)
  log := Log.filter arguments.level [.loadedProgram arguments.program image.length]
  complaint := none

def endedOutcome (edition : Edition) (arguments : Arguments) (image : List Byte) (machine : Machine)
    (count attempted : Nat) (stop : Stop Machine) : Outcome where
  exitStatus := 4
  output := edition.banner ++ unlines (edition.tables (machine.attempts (count + 1)).tail ++
    if arguments.dumpState then [stop.state.table] else [])
  log := Log.filter arguments.level
    ([.loadedProgram arguments.program image.length, .startingMachine arguments.maxSteps] ++
      (machine.attempts attempted).filterMap executeEntry ++
      [.machineStopped stop.state.pc stop.fault,
        .finalState stop.state.steps stop.state.flag stop.state.registers])
  complaint := some ("error: " ++ stop.fault.message)

section Courses

variable (edition : Edition) (files : Program.Files) (arguments : Arguments)

theorem execute_unloadable (error : LoadError) (failed : Program.load files arguments.program = .error error) :
    execute edition files arguments =
      some ⟨(Failure.unloadable error).exitStatus, edition.banner, [], some ("error: " ++ error.message)⟩ := by
  rw [execute, failed]
  simp [Console.outcome, Console.opened, Console.print, Failure.message]

theorem execute_listing (image : List Byte) (loaded : Program.load files arguments.program = .ok image)
    (lists : arguments.disassemble = true) :
    execute edition files arguments = some (listedOutcome edition arguments image) := by
  rw [execute, loaded]
  dsimp only
  rw [if_pos lists, Console.record_extended, show_listing_extended, Console.extended_extended,
    Console.outcome_extended]
  rfl

theorem execute_endless (image : List Byte) (machine : Machine)
    (loaded : Program.load files arguments.program = .ok image) (runs : arguments.disassemble = false)
    (built : Machine.withProgram image = .ok machine) (endless : machine.runWithin arguments.maxSteps = none) :
    execute edition files arguments = none := by
  rw [execute, loaded]
  dsimp only
  rw [if_neg (Bool.eq_false_iff.mp runs), built]
  dsimp only
  rw [start, Process.endless_observed arguments.maxSteps endless]
  rfl

theorem execute_ended (image : List Byte) (machine : Machine) (count attempted : Nat) (stop : Stop Machine)
    (loaded : Program.load files arguments.program = .ok image) (runs : arguments.disassemble = false)
    (built : Machine.withProgram image = .ok machine)
    (ends : Machine.step.Ends machine arguments.maxSteps count attempted stop) :
    execute edition files arguments =
      some (endedOutcome edition arguments image machine count attempted stop) := by
  rw [execute, loaded]
  dsimp only
  rw [if_neg (Bool.eq_false_iff.mp runs), built]
  dsimp only
  rw [start, Attempt.run_within_of_ends _ _ _ _ _ (Process.ends_observed _ count attempted stop ends)]
  simp [report_extended, Process.consoleAfter, Console.record_extended, Console.extended_extended,
    Console.outcome_extended, endedOutcome, Failure.message, Failure.exitStatus]

end Courses

structure Starts (files : Program.Files) (arguments : List String) (request : Arguments) (image : List Byte)
    (machine : Machine) : Prop where
  accepted : Arguments.parse arguments = .ok request
  runs : request.disassemble = false
  loaded : Program.load files request.program = .ok image
  built : Machine.withProgram image = .ok machine

-- A program that has been loaded is never refused by the machine: both ask for the same capacity.
theorem starts_of_loaded (files : Program.Files) (arguments : List String) (request : Arguments) (image : List Byte)
    (accepted : Arguments.parse arguments = .ok request) (runs : request.disassemble = false)
    (loaded : Program.load files request.program = .ok image) :
    ∃ machine, Starts files arguments request image machine :=
  ⟨_, accepted, runs, loaded, Machine.with_program_of_fits image (Program.fits_of_load _ _ _ loaded)⟩

theorem starts_unstepped (files : Program.Files) (arguments : List String) (request : Arguments) (image : List Byte)
    (machine : Machine) (starts : Starts files arguments request image machine) : machine.steps = 0 := by
  have built := Machine.with_program_of_fits image (Program.fits_of_load _ _ _ starts.loaded)
  rw [Except.ok.inj (starts.built.symm.trans built)]
  rfl

section Performances

variable (edition : Edition) (files : Program.Files) (arguments : List String)

theorem perform_refused (refusal : Refusal) (refused : Arguments.parse arguments = .error refusal) :
    perform edition files arguments = some refusal.outcome := by
  rw [perform, refused]

theorem perform_unloadable (request : Arguments) (error : LoadError)
    (accepted : Arguments.parse arguments = .ok request)
    (failed : Program.load files request.program = .error error) :
    perform edition files arguments =
      some ⟨(Failure.unloadable error).exitStatus, edition.banner, [], some ("error: " ++ error.message)⟩ := by
  rw [perform, accepted]
  exact execute_unloadable edition files request error failed

theorem perform_listing (request : Arguments) (image : List Byte)
    (accepted : Arguments.parse arguments = .ok request) (lists : request.disassemble = true)
    (loaded : Program.load files request.program = .ok image) :
    perform edition files arguments = some (listedOutcome edition request image) := by
  rw [perform, accepted]
  exact execute_listing edition files request image loaded lists

theorem perform_endless (request : Arguments) (image : List Byte) (machine : Machine)
    (starts : Starts files arguments request image machine) (endless : machine.runWithin request.maxSteps = none) :
    perform edition files arguments = none := by
  obtain ⟨accepted, runs, loaded, built⟩ := starts
  rw [perform, accepted]
  exact execute_endless edition files request image machine loaded runs built endless

theorem perform_ended (request : Arguments) (image : List Byte) (machine : Machine) (stop : Stop Machine)
    (starts : Starts files arguments request image machine)
    (returned : machine.runWithin request.maxSteps = some stop) :
    ∃ count attempted, Machine.step.Ends machine request.maxSteps count attempted stop ∧
      perform edition files arguments =
        some (endedOutcome edition request image machine count attempted stop) := by
  obtain ⟨accepted, runs, loaded, built⟩ := starts
  obtain ⟨count, attempted, ends⟩ := Attempt.ends_of_run_within machine request.maxSteps stop returned
  refine ⟨count, attempted, ends, ?_⟩
  rw [perform, accepted]
  exact execute_ended edition files request image machine count attempted stop loaded runs built ends

theorem ended_of_started (outcome : Outcome) (ended : perform edition files arguments = some outcome)
    (request : Arguments) (image : List Byte) (machine : Machine)
    (starts : Starts files arguments request image machine) :
    ∃ count attempted stop, Machine.step.Ends machine request.maxSteps count attempted stop ∧
      machine.runWithin request.maxSteps = some stop ∧
      outcome = endedOutcome edition request image machine count attempted stop := by
  cases returned : machine.runWithin request.maxSteps with
  | none => cases ended.symm.trans (perform_endless edition files arguments request image machine starts returned)
  | some stop =>
      obtain ⟨count, attempted, ends, stopped⟩ :=
        perform_ended edition files arguments request image machine stop starts returned
      exact ⟨count, attempted, stop, ends, rfl, Option.some.inj (ended.symm.trans stopped)⟩

theorem perform_stopping (request : Arguments) (image : List Byte) (machine : Machine)
    (starts : Starts files arguments request image machine) (stops : Machine.step.Stops machine request.maxSteps) :
    ∃ count attempted stop, Machine.step.Ends machine request.maxSteps count attempted stop ∧
      machine.runWithin request.maxSteps = some stop ∧
      perform edition files arguments =
        some (endedOutcome edition request image machine count attempted stop) := by
  obtain ⟨stop, returned⟩ := Attempt.run_within_of_stops machine request.maxSteps stops
  obtain ⟨count, attempted, ends, ended⟩ :=
    perform_ended edition files arguments request image machine stop starts returned
  exact ⟨count, attempted, stop, ends, returned, ended⟩

theorem perform_cases :
    (∃ refusal, Arguments.parse arguments = .error refusal) ∨
    (∃ request error, Arguments.parse arguments = .ok request ∧
      Program.load files request.program = .error error) ∨
    (∃ request image, Arguments.parse arguments = .ok request ∧ request.disassemble = true ∧
      Program.load files request.program = .ok image) ∨
    ∃ request image machine, Starts files arguments request image machine := by
  cases accepted : Arguments.parse arguments with
  | error refusal => exact .inl ⟨refusal, rfl⟩
  | ok request =>
      right
      cases loaded : Program.load files request.program with
      | error error => exact .inl ⟨request, error, rfl, loaded⟩
      | ok image =>
          right
          cases lists : request.disassemble with
          | true => exact .inl ⟨request, image, rfl, lists, loaded⟩
          | false =>
              obtain ⟨machine, starts⟩ := starts_of_loaded files arguments request image accepted lists loaded
              exact .inr ⟨request, image, machine, starts⟩

end Performances

def strayLoad : Program.Files := fun _ => .ok "10000010\n1\n11\n10000010\n1000\n0".toUTF8

theorem stray_load_loads (path : String) : Program.load strayLoad path = .ok [0b10000010, 1, 3, 0b10000010, 8, 0] := by
  have lines : Program.lines "10000010\n1\n11\n10000010\n1000\n0".toList =
      ["10000010".toList, "1".toList, "11".toList, "10000010".toList, "1000".toList, "0".toList] := by decide
  have parsed : Program.parse "10000010\n1\n11\n10000010\n1000\n0" = .ok [0b10000010, 1, 3, 0b10000010, 8, 0] := by
    rw [Program.parse, lines]
    rfl
  exact Program.load_of_parsed strayLoad path _ _ rfl parsed (by decide)

end CommandLine

end StoredProgram
