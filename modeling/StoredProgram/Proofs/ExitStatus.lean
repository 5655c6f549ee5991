import StoredProgram.Proofs.Execution

set_option autoImplicit false

namespace StoredProgram.CommandLine

open Text

def ExitCause (files : Program.Files) (arguments : List String) : Nat → Prop
  | 0 =>
      (Arguments.parse arguments = .error .help ∨ Arguments.parse arguments = .error .version) ∨
        ∃ request image, Arguments.parse arguments = .ok request ∧ request.disassemble = true ∧
          Program.load files request.program = .ok image
  | 1 => ∃ refusal, Arguments.parse arguments = .error refusal ∧ refusal ≠ .help ∧ refusal ≠ .version
  | 2 =>
      ∃ request cause, Arguments.parse arguments = .ok request ∧
        Program.load files request.program = .error (.programNotFound request.program cause)
  | 3 =>
      ∃ request, Arguments.parse arguments = .ok request ∧
        ((∃ line text, Program.load files request.program = .error (.malformedInstruction line text)) ∨
          ∃ length capacity, Program.load files request.program = .error (.programTooLarge length capacity))
  | 4 => ∃ request image machine, Starts files arguments request image machine
  | _ => False

theorem exit_status_of_refusal (refusal : Refusal) :
    ((refusal = .help ∨ refusal = .version) ∧ refusal.outcome.exitStatus = 0) ∨
      (refusal ≠ .help ∧ refusal ≠ .version ∧ refusal.outcome.exitStatus = 1) := by
  cases refusal <;> simp [Refusal.outcome]

section Ended

variable (edition : Edition) (files : Program.Files) (arguments : List String) (outcome : Outcome)
  (ended : perform edition files arguments = some outcome)

include ended

theorem exit_cause_of_ended : ExitCause files arguments outcome.exitStatus := by
  rcases perform_cases files arguments with ⟨refusal, refused⟩ | ⟨request, error, accepted, failed⟩ |
    ⟨request, image, accepted, lists, loaded⟩ | ⟨request, image, machine, starts⟩
  · rw [perform_refused edition files arguments refusal refused] at ended
    cases ended
    rcases exit_status_of_refusal refusal with ⟨rfl | rfl, status⟩ | ⟨notHelp, notVersion, status⟩
    · exact .inl (.inl refused)
    · exact .inl (.inr refused)
    · rw [status]
      exact ⟨refusal, refused, notHelp, notVersion⟩
  · rw [perform_unloadable edition files arguments request error accepted failed] at ended
    cases ended
    rcases Program.load_error_cases _ _ _ failed with ⟨cause, rfl, -⟩ | ⟨line, text, rfl⟩ | ⟨length, rfl⟩
    · exact ⟨request, cause, accepted, failed⟩
    · exact ⟨request, accepted, .inl ⟨line, text, failed⟩⟩
    · exact ⟨request, accepted, .inr ⟨length, _, failed⟩⟩
  · rw [perform_listing edition files arguments request image accepted lists loaded] at ended
    cases ended
    exact .inr ⟨request, image, accepted, lists, loaded⟩
  · obtain ⟨count, attempted, stop, -, -, rfl⟩ :=
      ended_of_started edition files arguments outcome ended request image machine starts
    exact ⟨request, image, machine, starts⟩

theorem exit_status_of_cause (status : Nat) (cause : ExitCause files arguments status) :
    outcome.exitStatus = status := by
  match status, cause with
  | 0, .inl (.inl help) =>
      rw [perform_refused edition files arguments _ help] at ended
      cases ended
      rfl
  | 0, .inl (.inr version) =>
      rw [perform_refused edition files arguments _ version] at ended
      cases ended
      rfl
  | 0, .inr ⟨request, image, accepted, lists, loaded⟩ =>
      rw [perform_listing edition files arguments request image accepted lists loaded] at ended
      cases ended
      rfl
  | 1, ⟨refusal, refused, notHelp, notVersion⟩ =>
      rw [perform_refused edition files arguments refusal refused] at ended
      cases ended
      rcases exit_status_of_refusal refusal with ⟨rfl | rfl, -⟩ | ⟨-, -, status⟩
      · exact absurd rfl notHelp
      · exact absurd rfl notVersion
      · exact status
  | 2, ⟨request, cause, accepted, failed⟩ =>
      rw [perform_unloadable edition files arguments request _ accepted failed] at ended
      cases ended
      rfl
  | 3, ⟨request, accepted, .inl ⟨line, text, failed⟩⟩ =>
      rw [perform_unloadable edition files arguments request _ accepted failed] at ended
      cases ended
      rfl
  | 3, ⟨request, accepted, .inr ⟨length, capacity, failed⟩⟩ =>
      rw [perform_unloadable edition files arguments request _ accepted failed] at ended
      cases ended
      rfl
  | 4, ⟨request, image, machine, starts⟩ =>
      obtain ⟨count, attempted, stop, -, -, rfl⟩ :=
        ended_of_started edition files arguments outcome ended request image machine starts
      rfl

end Ended

theorem perform_endless_iff (edition : Edition) (files : Program.Files) (arguments : List String) :
    perform edition files arguments = none ↔
      ∃ request image machine, Starts files arguments request image machine ∧ request.maxSteps = none ∧
        machine.run = none := by
  constructor
  · intro endless
    rcases perform_cases files arguments with ⟨refusal, refused⟩ | ⟨request, error, accepted, failed⟩ |
      ⟨request, image, accepted, lists, loaded⟩ | ⟨request, image, machine, starts⟩
    · rw [perform_refused edition files arguments refusal refused] at endless
      cases endless
    · rw [perform_unloadable edition files arguments request error accepted failed] at endless
      cases endless
    · rw [perform_listing edition files arguments request image accepted lists loaded] at endless
      cases endless
    · cases returned : machine.runWithin request.maxSteps with
      | none => exact ⟨request, image, machine, starts, (Attempt.run_within_eq_none_iff machine _).mp returned⟩
      | some stop =>
          obtain ⟨count, attempted, -, stopped⟩ :=
            perform_ended edition files arguments request image machine stop starts returned
          cases endless.symm.trans stopped
  · rintro ⟨request, image, machine, starts, unreturned⟩
    exact perform_endless edition files arguments request image machine starts
      ((Attempt.run_within_eq_none_iff machine _).mpr unreturned)

theorem program_not_found_iff (files : Program.Files) (path : String) :
    (∃ cause, Program.load files path = .error (.programNotFound path cause)) ↔
      (∃ cause, files path = .error cause) ∨
        ∃ content, files path = .ok content ∧ String.fromUTF8? content = none := by
  rw [← Program.read_text_eq_error_iff]
  constructor
  · rintro ⟨cause, failed⟩
    rcases Program.load_error_cases _ _ _ failed with
      ⟨other, -, unread⟩ | ⟨line, text, impossible⟩ | ⟨length, impossible⟩
    · exact ⟨other, unread⟩
    · cases impossible
    · cases impossible
  · rintro ⟨cause, unread⟩
    refine ⟨cause, ?_⟩
    rw [Program.load_eq, unread]

-- The two capacity checks never part, so that a program that is loaded and not listed always starts a machine, and
-- status 4 stands for every course that is left.
theorem exit_status_classifies_the_process (edition : Edition) (files : Program.Files) (arguments : List String) :
    (perform edition files arguments = none ↔
      ∃ request image machine, Starts files arguments request image machine ∧ request.maxSteps = none ∧
        machine.run = none) ∧
    (∀ request image machine, Starts files arguments request image machine →
      Machine.step.Stops machine request.maxSteps → ∃ outcome, perform edition files arguments = some outcome) ∧
    (∀ path, (∃ cause, Program.load files path = .error (.programNotFound path cause)) ↔
      (∃ cause, files path = .error cause) ∨
        ∃ content, files path = .ok content ∧ String.fromUTF8? content = none) ∧
    ∀ outcome, perform edition files arguments = some outcome →
      (∀ status, outcome.exitStatus = status ↔ ExitCause files arguments status) ∧
      (∀ request image machine, Starts files arguments request image machine →
        ∃ stop, outcome.complaint = some ("error: " ++ stop.fault.message) ∧
          match request.maxSteps with
          | none => machine.run = some stop
          | some limit => machine.runFor limit = stop) ∧
      (∀ request error, Arguments.parse arguments = .ok request →
        Program.load files request.program = .error error →
        outcome.complaint = some ("error: " ++ error.message) ∧ outcome.output = edition.banner) ∧
      ∀ request image, Arguments.parse arguments = .ok request → request.disassemble = true →
        Program.load files request.program = .ok image →
        outcome.output = edition.banner ++ unlines ((listing image).map Listing.Row.text) ∧
        outcome.complaint = none ∧
        ∀ others maxSteps dumpState, Arguments.parse others = .ok { request with maxSteps, dumpState } →
          perform edition files others = some outcome := by
  refine ⟨perform_endless_iff edition files arguments, ?_, program_not_found_iff files, ?_⟩
  · intro request image machine starts stops
    obtain ⟨count, attempted, stop, -, -, ended⟩ :=
      perform_stopping edition files arguments request image machine starts stops
    exact ⟨_, ended⟩
  intro outcome ended
  refine ⟨?_, ?_, ?_, ?_⟩
  · intro status
    constructor
    · rintro rfl
      exact exit_cause_of_ended edition files arguments outcome ended
    · exact exit_status_of_cause edition files arguments outcome ended status
  · intro request image machine starts
    obtain ⟨count, attempted, stop, -, returned, rfl⟩ :=
      ended_of_started edition files arguments outcome ended request image machine starts
    refine ⟨stop, rfl, ?_⟩
    cases limit : request.maxSteps with
    | none =>
        rw [limit] at returned
        exact returned
    | some bound =>
        rw [limit] at returned
        exact Option.some.inj returned
  · intro request error accepted failed
    rw [perform_unloadable edition files arguments request error accepted failed] at ended
    cases ended
    exact ⟨rfl, rfl⟩
  · intro request image accepted lists loaded
    rw [perform_listing edition files arguments request image accepted lists loaded] at ended
    cases ended
    refine ⟨rfl, rfl, ?_⟩
    intro others maxSteps dumpState acceptedToo
    exact perform_listing edition files others { request with maxSteps, dumpState } image acceptedToo lists loaded

theorem stray_load_runs_and_lists :
    (∃ outcome, perform .plain strayLoad ["--max-steps", "5", "prog"] = some outcome ∧ outcome.exitStatus = 4 ∧
      outcome.complaint = some "error: Address out of bounds: R[8]") ∧
    ∃ outcome, perform .traced strayLoad ["--disassemble", "prog"] = some outcome ∧ outcome.exitStatus = 0 ∧
      outcome.output = "Computation Tracing ENABLED\n  0:  LDI R[1], 3\n  3:  LDI R[8], 0\n" ∧
      perform .traced strayLoad ["--max-steps", "5", "--disassemble", "prog"] = some outcome := by
  refine ⟨?_, ?_⟩
  · have accepted : Arguments.parse ["--max-steps", "5", "prog"] = .ok ⟨"prog", some 5, false, false, .warn⟩ := rfl
    obtain ⟨machine, starts⟩ := starts_of_loaded strayLoad _ _ _ accepted rfl (stray_load_loads "prog")
    obtain ⟨-, ends, -, classified⟩ :=
      exit_status_classifies_the_process .plain strayLoad ["--max-steps", "5", "prog"]
    obtain ⟨outcome, ended⟩ := ends _ _ machine starts (Attempt.stops_within machine 5)
    obtain ⟨status, complains, -, -⟩ := classified outcome ended
    obtain ⟨stop, complaint, returned⟩ := complains _ _ machine starts
    have fault : (machine.runFor 5).fault = .outOfBounds (.register 8) := by
      obtain rfl := Except.ok.inj starts.built
      decide +kernel
    have stopped : machine.runFor 5 = stop := returned
    rw [← stopped, fault] at complaint
    exact ⟨outcome, ended, (status 4).mpr ⟨_, _, machine, starts⟩, complaint⟩
  · have accepted : Arguments.parse ["--disassemble", "prog"] = .ok ⟨"prog", none, true, false, .warn⟩ := rfl
    have acceptedToo : Arguments.parse ["--max-steps", "5", "--disassemble", "prog"] =
        .ok ⟨"prog", some 5, true, false, .warn⟩ := rfl
    obtain ⟨unending, -, -, classified⟩ := exit_status_classifies_the_process .traced strayLoad ["--disassemble", "prog"]
    cases ended : perform .traced strayLoad ["--disassemble", "prog"] with
    | none =>
        obtain ⟨request, image, other, starts, -, -⟩ := unending.mp ended
        have runs := starts.runs
        rw [Except.ok.inj (starts.accepted.symm.trans accepted)] at runs
        cases runs
    | some outcome =>
        obtain ⟨status, -, -, lists⟩ := classified outcome ended
        obtain ⟨output, -, same⟩ := lists _ _ accepted rfl (stray_load_loads "prog")
        refine ⟨outcome, rfl, (status 0).mpr (.inr ⟨_, _, accepted, rfl, stray_load_loads "prog"⟩), output, ?_⟩
        exact same _ (some 5) false acceptedToo

end StoredProgram.CommandLine
