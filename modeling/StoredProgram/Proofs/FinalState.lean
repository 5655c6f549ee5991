import StoredProgram.Proofs.Execution
import StoredProgram.Proofs.Runners

set_option autoImplicit false

namespace StoredProgram

open Text

namespace Machine

theorem states_of_completes (count : Nat) (machine final : Machine) (reached : step.Completes count machine final) :
    (machine :: (machine.attempts (count + 1)).tail).getLast? = some final ∧
      (machine.attempts (count + 1)).tail.length = count := by
  rw [attempts_cons, attempts_of_completes count machine final reached]
  refine ⟨List.getLast?_concat, ?_⟩
  rw [List.length_tail, List.length_append, length_attempts_of_completes count machine final reached]
  rfl

theorem state_of_completes (count index : Nat) (machine state : Machine)
    (shown : (machine.attempts (count + 1)).tail[index]? = some state) : step.Completes (index + 1) machine state := by
  rw [List.getElem?_tail] at shown
  exact ((getElem_attempts_iff _ _ _ _).mp shown).2

theorem table_headed (machine : Machine) :
    ∃ front, machine.table = unlines ((front ++ "\tSteps: " ++ decimal machine.steps) :: machine.grid.lines) := by
  refine ⟨"PC: " ++ decimal machine.pc ++ "\tFL: " ++ machine.flag.name ++ " (" ++
    binary 3 machine.flag.bits.toNat ++ ")", ?_⟩
  have parts : ")\tSteps: " = ")" ++ "\tSteps: " := rfl
  simp only [table, heading, parts, String.append_assoc]

end Machine

theorem Log.filter_comm (level other : Level) (entries : List Entry) :
    filter level (filter other entries) = filter other (filter level entries) := by
  simp only [filter, List.filter_filter, Bool.and_comm]

namespace CommandLine

theorem ending_entries (edition : Edition) (request : Arguments) (image : List Byte) (machine : Machine)
    (count attempted : Nat) (stop : Stop Machine) :
    (endedOutcome edition request image machine count attempted stop).log.filter
        (fun entry => entry.severity = .error || entry.severity = .info) =
      Log.filter request.level [.machineStopped stop.state.pc stop.fault,
        .finalState stop.state.steps stop.state.flag stop.state.registers] := by
  change Log.filter .info _ = _
  have steps : Log.filter .info ((machine.attempts attempted).filterMap executeEntry) = [] := by
    refine List.filter_eq_nil_iff.mpr ?_
    intro entry member
    rw [severity_of_mem_entries _ entry member]
    decide
  rw [endedOutcome, Log.filter_comm]
  refine congrArg (Log.filter request.level) ?_
  unfold Log.filter at steps ⊢
  rw [List.filter_append, List.filter_append, steps]
  rfl

theorem final_state_views_agree (edition : Edition) (files : Program.Files) (arguments : List String)
    (request : Arguments) (image : List Byte) (accepted : Arguments.parse arguments = .ok request)
    (runs : request.disassemble = false) (loaded : Program.load files request.program = .ok image) :
    ∃ machine, Machine.withProgram image = .ok machine ∧
      (Machine.step.Stops machine request.maxSteps →
        ∃ final fault outcome states ending, machine.runWithin request.maxSteps = some ⟨final, fault⟩ ∧
          perform edition files arguments = some outcome ∧
          Machine.step.Completes states.length machine final ∧
          (machine :: states).getLast? = some final ∧
          (∀ index state, states[index]? = some state →
            Machine.step.Completes (index + 1) machine state ∧
              ∃ front, state.table = unlines ((front ++ "\tSteps: " ++ decimal (index + 1)) :: state.grid.lines)) ∧
          (match edition with
          | .plain => outcome.output = unlines (if request.dumpState then [final.table] else [])
          | .traced =>
              outcome.output = "Computation Tracing ENABLED\n" ++
                unlines (states.map Machine.table ++ if request.dumpState then [final.table] else [])) ∧
          outcome.log.filter (fun entry => entry.severity = .error || entry.severity = .info) = ending ∧
          ending =
            (match request.level with
            | .off => []
            | .warn => [.machineStopped final.pc fault]
            | _ => [.machineStopped final.pc fault, .finalState states.length final.flag final.registers]) ∧
          ending.map Log.Entry.severity =
            match request.level with
            | .off => []
            | .warn => [.error]
            | _ => [.error, .info]) := by
  obtain ⟨machine, starts⟩ := starts_of_loaded files arguments request image accepted runs loaded
  refine ⟨machine, starts.built, fun stops => ?_⟩
  obtain ⟨count, attempted, ⟨final, fault⟩, ends, returned, ended⟩ :=
    perform_stopping edition files arguments request image machine starts stops
  have fresh := starts_unstepped files arguments request image machine starts
  have reached := Machine.ends_completes machine request.maxSteps count attempted _ ends
  obtain ⟨last, length⟩ := Machine.states_of_completes count machine final reached
  have counted : final.steps = count := by
    rw [(Machine.completes_frame count machine final reached).2, fresh, Nat.zero_add]
  refine ⟨final, fault, _, (machine.attempts (count + 1)).tail, _, returned, ended, ?_, last, ?_, ?_,
    ending_entries edition request image machine count attempted ⟨final, fault⟩, ?_, ?_⟩
  · rw [length]
    exact reached
  · intro index state shown
    have reached := Machine.state_of_completes count index machine state shown
    have counted : state.steps = index + 1 := by
      rw [(Machine.completes_frame _ machine state reached).2, fresh, Nat.zero_add]
    refine ⟨reached, ?_⟩
    rw [← counted]
    exact state.table_headed
  · cases edition <;> rfl
  · rw [counted, length]
    cases request.level <;> rfl
  · cases request.level <;> rfl

theorem stray_load_dumps_last_table :
    ∃ (outcome : Outcome) (final : Machine),
      perform .traced strayLoad ["--dump-state", "--max-steps", "5", "prog"] = some outcome ∧
      final.steps = 1 ∧
      outcome.output = "Computation Tracing ENABLED\n" ++ unlines [final.table, final.table] ∧
      outcome.log.filter (fun entry => entry.severity = .error || entry.severity = .info) =
        [.machineStopped final.pc (.outOfBounds (.register 8))] := by
  have accepted : Arguments.parse ["--dump-state", "--max-steps", "5", "prog"] =
      .ok ⟨"prog", some 5, false, true, .warn⟩ := rfl
  obtain ⟨machine, built, agree⟩ :=
    final_state_views_agree .traced strayLoad _ _ _ accepted rfl (stray_load_loads "prog")
  obtain ⟨final, fault, outcome, states, ending, returned, ended, reached, last, -, output, filtered, rfl, -⟩ :=
    agree (Attempt.stops_within machine 5)
  have same : machine.runFor 5 = ⟨final, fault⟩ := Option.some.inj returned
  have stopped : (machine.runFor 5).fault = .outOfBounds (.register 8) ∧ (machine.runFor 5).state.steps = 1 ∧
      machine.steps = 0 := by
    obtain rfl := Except.ok.inj built
    decide +kernel
  rw [same] at stopped
  obtain ⟨rfl, steps, fresh⟩ := stopped
  have counted := (Machine.completes_frame states.length machine _ reached).2
  rw [steps, fresh, Nat.zero_add] at counted
  obtain ⟨state, rfl⟩ := List.length_eq_one_iff.mp counted.symm
  refine ⟨outcome, _, ended, steps, ?_, filtered⟩
  rw [← Option.some.inj last] at output ⊢
  exact output

end CommandLine

end StoredProgram
