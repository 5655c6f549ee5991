import StoredProgram.Proofs.Execution
import StoredProgram.Proofs.Switches

set_option autoImplicit false

namespace StoredProgram

namespace Log

def Level.severities : Level → List Severity
  | .off => []
  | .warn => [.error]
  | .info => [.error, .info]
  | .debug => [.error, .info, .debug]
  | .trace => [.error, .info, .debug, .trace]

theorem filter_severities (level : Level) (entries : List Entry) :
    filter level entries = entries.filter fun entry => entry.severity ∈ level.severities := by
  refine List.filter_congr ?_
  intro entry _
  cases level <;> cases entry.severity <;> rfl

end Log

namespace CommandLine

def Outcome.admitted (level : Log.Level) (outcome : Outcome) : Outcome :=
  { outcome with log := outcome.log.filter fun entry => entry.severity ∈ level.severities }

theorem listed_outcome_admitted (edition : Edition) (request : Arguments) (image : List Byte) :
    listedOutcome edition request image =
      (listedOutcome edition { request with level := .trace } image).admitted request.level := by
  rw [Outcome.admitted, listedOutcome, listedOutcome, Log.filter_trace, Log.filter_severities]

theorem ended_outcome_admitted (edition : Edition) (request : Arguments) (image : List Byte) (machine : Machine)
    (count attempted : Nat) (stop : Stop Machine) :
    endedOutcome edition request image machine count attempted stop =
      (endedOutcome edition { request with level := .trace } image machine count attempted stop).admitted
        request.level := by
  rw [Outcome.admitted, endedOutcome, endedOutcome, Log.filter_trace, Log.filter_severities]

-- Both runs take the same course, for it is chosen by what the level has no part in.
theorem execute_admitted (edition : Edition) (files : Program.Files) (request : Arguments) :
    execute edition files request =
      (execute edition files { request with level := .trace }).map (Outcome.admitted request.level) := by
  cases loaded : Program.load files request.program with
  | error error =>
      rw [execute_unloadable edition files request error loaded,
        execute_unloadable edition files { request with level := .trace } error loaded]
      rfl
  | ok image =>
      by_cases lists : request.disassemble = true
      · rw [execute_listing edition files request image loaded lists,
          execute_listing edition files { request with level := .trace } image loaded lists,
          listed_outcome_admitted]
        rfl
      · have runs := Bool.eq_false_iff.mpr lists
        obtain ⟨machine, built⟩ : ∃ machine, Machine.withProgram image = .ok machine :=
          ⟨_, Machine.with_program_of_fits image (Program.fits_of_load _ _ _ loaded)⟩
        cases returned : machine.runWithin request.maxSteps with
        | none =>
            rw [execute_endless edition files request image machine loaded runs built returned,
              execute_endless edition files { request with level := .trace } image machine loaded runs built returned]
            rfl
        | some stop =>
            obtain ⟨count, attempted, ends⟩ := Attempt.ends_of_run_within machine request.maxSteps stop returned
            rw [execute_ended edition files request image machine count attempted stop loaded runs built ends,
              execute_ended edition files { request with level := .trace } image machine count attempted stop loaded
                runs built ends,
              ended_outcome_admitted]
            rfl

theorem perform_apart_from_log (edition : Edition) (files : Program.Files) (first second : List String)
    (request : Arguments) (level : Log.Level) (accepted : Arguments.parse first = .ok request)
    (acceptedToo : Arguments.parse second = .ok { request with level }) :
    (perform edition files first).map (Outcome.admitted .off) =
      (perform edition files second).map (Outcome.admitted .off) := by
  have hidden (level : Log.Level) : Outcome.admitted .off ∘ Outcome.admitted level = Outcome.admitted .off := by
    funext outcome
    simp [Outcome.admitted, Log.Level.severities]
  rw [perform, accepted, perform, acceptedToo]
  dsimp only
  rw [execute_admitted edition files request, execute_admitted edition files { request with level },
    Option.map_map, Option.map_map, hidden, hidden]

theorem level_only_filters_the_log (edition : Edition) (files : Program.Files) (first second : List String)
    (request : Arguments) (level : Log.Level) (accepted : Arguments.parse first = .ok request)
    (acceptedToo : Arguments.parse second = .ok { request with level }) :
    (perform edition files first = none ↔ perform edition files second = none) ∧
    (∀ one other, perform edition files first = some one → perform edition files second = some other →
      one.exitStatus = other.exitStatus ∧ one.output = other.output ∧ one.complaint = other.complaint) ∧
    perform edition files first =
      (execute edition files { request with level := .trace }).map (Outcome.admitted request.level) ∧
    perform edition files second =
      (execute edition files { request with level := .trace }).map (Outcome.admitted level) ∧
    (∀ verbose reached, Arguments.parse verbose = .ok { request with level := reached } →
      .quiet ∉ switchesGiven verbose → 3 ≤ (switchesGiven verbose).count .verbosity →
      perform edition files verbose = execute edition files { request with level := .trace }) ∧
    request.level = levelOf (switchesGiven first) ∧ level = levelOf (switchesGiven second) := by
  have same := perform_apart_from_log edition files first second request level accepted acceptedToo
  refine ⟨?_, ?_, ?_, ?_, ?_, (switches_of_parsed first _ accepted).1, (switches_of_parsed second _ acceptedToo).1⟩
  · rw [← Option.map_eq_none_iff, same, Option.map_eq_none_iff]
  · intro one other ended endedToo
    rw [ended, endedToo] at same
    injection same with same
    injection same with status output log complaint
    exact ⟨status, output, complaint⟩
  · rw [perform, accepted]
    exact execute_admitted edition files request
  · rw [perform, acceptedToo]
    exact execute_admitted edition files { request with level }
  · intro verbose reached acceptedThree loud many
    have trace : reached = .trace := (switches_of_parsed verbose _ acceptedThree).1.trans (level_of_many _ loud many)
    rw [perform, acceptedThree, trace]

theorem quiet_load_is_unlogged :
    ∃ full, perform .traced strayLoad ["-vvvv", "--max-steps", "5", "prog"] = some full ∧
      perform .traced strayLoad ["-q", "-v", "--max-steps", "5", "prog"] = some { full with log := [] } ∧
      perform .traced strayLoad ["-v", "--max-steps", "5", "prog"] =
        some { full with log := full.log.filter fun entry => entry.severity ∈ [Log.Severity.error, .info] } := by
  have quiet : Arguments.parse ["-q", "-v", "--max-steps", "5", "prog"] =
      .ok ⟨"prog", some 5, false, false, .off⟩ := rfl
  have informed : Arguments.parse ["-v", "--max-steps", "5", "prog"] =
      .ok ⟨"prog", some 5, false, false, .info⟩ := rfl
  have verbose : Arguments.parse ["-vvvv", "--max-steps", "5", "prog"] =
      .ok ⟨"prog", some 5, false, false, .trace⟩ := rfl
  have given : switchesGiven ["-vvvv", "--max-steps", "5", "prog"] = List.replicate 4 .verbosity := by decide
  obtain ⟨machine, starts⟩ := starts_of_loaded strayLoad _ _ _ verbose rfl (stray_load_loads "prog")
  obtain ⟨_, _, _, -, -, ended⟩ :=
    perform_stopping .traced strayLoad _ _ _ machine starts (Attempt.stops_within machine 5)
  obtain ⟨-, -, first, second, third, -⟩ := level_only_filters_the_log .traced strayLoad _ _ _ .info quiet informed
  have reference := third _ .trace verbose (by rw [given]; decide) (by rw [given]; decide)
  rw [← reference, ended] at first second
  refine ⟨_, ended, first.trans ?_, second⟩
  simp [Outcome.admitted, Log.Level.severities]

end CommandLine

end StoredProgram
