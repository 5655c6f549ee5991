import StoredProgram.Proofs.Execution

set_option autoImplicit false

namespace StoredProgram

open Log

namespace Machine

open Attempt

def LogsAt (machine : Machine) (index : Nat) (entry : Entry) : Prop :=
  ∃ state instruction, step.Completes index machine state ∧
    Instruction.decode state.memory.cells state.pc = .ok instruction ∧
    entry = .execute state.pc instruction state.flag

theorem logs_at_done (machine next : Machine) (index : Nat) (entry : Entry)
    (done : step.run machine = .ok () next) (logged : LogsAt next index entry) :
    LogsAt machine (index + 1) entry := by
  obtain ⟨state, instruction, reached, decoded, same⟩ := logged
  exact ⟨state, instruction, .more done reached, decoded, same⟩

theorem entry_of_done (machine next : Machine) (done : step.run machine = .ok () next) :
    ∃ entry, CommandLine.executeEntry machine = some entry ∧ LogsAt machine 0 entry := by
  obtain ⟨instruction, acted, decoded, -, -⟩ :=
    (successor_eq_ok_iff machine next).mp ((step_ok_iff machine next).mp done)
  exact ⟨_, CommandLine.execute_entry_of_decoded machine instruction decoded, machine, instruction, .none machine,
    decoded, rfl⟩

theorem entry_of_refused (machine : Machine) (fault : Fault) (refused : machine.successor = .error fault) :
    (∃ register entry, fault = .outOfBounds (.register register) ∧
      CommandLine.executeEntry machine = some entry ∧ LogsAt machine 0 entry) ∨
    ((∀ register, fault ≠ .outOfBounds (.register register)) ∧ CommandLine.executeEntry machine = none) := by
  rcases (successor_eq_error_iff machine fault).mp refused with undecoded | ⟨instruction, decoded, unexecuted⟩
  · refine .inr ⟨?_, CommandLine.execute_entry_undecoded machine fault undecoded⟩
    rintro register rfl
    rcases (Instruction.decode_eq_error_iff _ _ _).mp undecoded with
      ⟨-, report⟩ | ⟨_, -, -, report⟩ | ⟨-, -, report⟩
    all_goals cases report
  · have logged : LogsAt machine 0 (.execute machine.pc instruction machine.flag) :=
      ⟨machine, instruction, .none machine, decoded, rfl⟩
    have entry := CommandLine.execute_entry_of_decoded machine instruction decoded
    rcases (execute_eq_error_iff machine instruction fault).mp unexecuted with
      ⟨register, value, -, -, report⟩ | ⟨condition, register, -, -, -, report⟩
    · exact .inl ⟨register.toNat, _, report, entry, logged⟩
    · exact .inl ⟨register, _, report, entry, logged⟩

theorem entries_of_completes (count : Nat) (machine final : Machine) (reached : step.Completes count machine final) :
    ((machine.attempts count).filterMap CommandLine.executeEntry).length = count ∧
      ∀ index entry, ((machine.attempts count).filterMap CommandLine.executeEntry)[index]? = some entry →
        LogsAt machine index entry := by
  induction reached with
  | none machine => exact ⟨rfl, nofun⟩
  | @more count machine next final done rest ih =>
      obtain ⟨first, made, logged⟩ := entry_of_done machine next done
      rw [attempts_succ, done, List.filterMap_cons_some made]
      refine ⟨congrArg (· + 1) ih.1, ?_⟩
      intro index entry written
      cases index with
      | zero =>
          cases written
          exact logged
      | succ index => exact logs_at_done machine next index entry done (ih.2 index entry written)

theorem logs_at_after (count : Nat) (machine final : Machine) (entry : Entry)
    (reached : step.Completes count machine final) (logged : LogsAt final 0 entry) : LogsAt machine count entry := by
  obtain ⟨state, instruction, standing, decoded, same⟩ := logged
  obtain rfl := (completes_zero_iff final state).mp standing
  exact ⟨state, instruction, reached, decoded, same⟩

def executions (count : Nat) : Fault → Nat
  | .outOfBounds (.register _) => count + 1
  | _ => count

theorem executions_of_others (count : Nat) (fault : Fault)
    (other : ∀ register, fault ≠ .outOfBounds (.register register)) :
    executions count fault = count := by
  rw [executions.eq_def]
  split
  · rename_i register
    exact absurd rfl (other register)
  · rfl

theorem logs_at_appended (machine : Machine) (entries : List Entry) (last : Entry)
    (logged : ∀ index entry, entries[index]? = some entry → LogsAt machine index entry)
    (lastLogged : LogsAt machine entries.length last) (index : Nat) (entry : Entry)
    (written : (entries ++ [last])[index]? = some entry) : LogsAt machine index entry := by
  rw [List.getElem?_append] at written
  split at written
  · exact logged index entry written
  · rename_i beyond
    rw [List.getElem?_singleton] at written
    split at written
    · rename_i first
      cases written
      have place : index = entries.length := by omega
      rw [place]
      exact lastLogged
    · cases written

theorem entries_of_ends (machine : Machine) (limit : Option Nat) (count attempted : Nat) (stop : Stop Machine)
    (ends : step.Ends machine limit count attempted stop) :
    ((machine.attempts attempted).filterMap CommandLine.executeEntry).length = executions count stop.fault ∧
      ∀ index entry, ((machine.attempts attempted).filterMap CommandLine.executeEntry)[index]? = some entry →
        LogsAt machine index entry := by
  have reached := ends_completes machine limit count attempted stop ends
  obtain ⟨length, logged⟩ := entries_of_completes count machine stop.state reached
  cases ends with
  | limited => exact ⟨length, logged⟩
  | faulted faults before =>
      have refused := faults_after_refused count machine stop faults
      rw [attempts_of_completes count machine stop.state reached, List.filterMap_append]
      rcases entry_of_refused stop.state stop.fault refused with
        ⟨register, last, report, made, lastLogged⟩ | ⟨other, unmade⟩
      · rw [List.filterMap_cons_some made, List.filterMap_nil, report]
        have whole : executions count (.outOfBounds (.register register)) = count + 1 := rfl
        refine ⟨by rw [List.length_append, length, whole, List.length_singleton], ?_⟩
        refine logs_at_appended machine _ last logged ?_
        rw [length]
        exact logs_at_after count machine stop.state last reached lastLogged
      · rw [List.filterMap_cons_none unmade, List.filterMap_nil, List.append_nil,
          executions_of_others count stop.fault other]
        exact ⟨length, logged⟩

end Machine

namespace CommandLine

theorem severities_of_entries (machines : List Machine) :
    (machines.filterMap executeEntry).map Log.Entry.severity =
      List.replicate (machines.filterMap executeEntry).length .trace := by
  refine List.eq_replicate_iff.mpr ⟨List.length_map _, ?_⟩
  intro severity member
  obtain ⟨entry, logged, rfl⟩ := List.mem_map.mp member
  exact severity_of_mem_entries machines entry logged

theorem trace_log_follows_the_run (edition : Edition) (files : Program.Files) (arguments : List String)
    (request : Arguments) (image : List Byte) (accepted : Arguments.parse arguments = .ok request)
    (verbose : request.level = .trace) (runs : request.disassemble = false)
    (loaded : Program.load files request.program = .ok image) :
    ∃ machine, Machine.withProgram image = .ok machine ∧
      (Machine.step.Stops machine request.maxSteps →
        ∃ stop outcome count executed, machine.runWithin request.maxSteps = some stop ∧
          perform edition files arguments = some outcome ∧
          Machine.step.Completes count machine stop.state ∧ stop.state.steps = count ∧
          outcome.log =
            [.loadedProgram request.program image.length, .startingMachine request.maxSteps] ++ executed ++
              [.machineStopped stop.state.pc stop.fault,
                .finalState count stop.state.flag stop.state.registers] ∧
          outcome.log.map Log.Entry.severity =
            [.debug, .debug] ++ List.replicate executed.length .trace ++ [.error, .info] ∧
          executed.length =
            (match stop.fault with
            | .outOfBounds (.register _) => count + 1
            | _ => count) ∧
          ∀ index entry, executed[index]? = some entry →
            ∃ state instruction, Machine.step.Completes index machine state ∧
              Instruction.decode state.memory.cells state.pc = .ok instruction ∧
              entry = .execute state.pc instruction state.flag) := by
  obtain ⟨machine, starts⟩ := starts_of_loaded files arguments request image accepted runs loaded
  refine ⟨machine, starts.built, fun stops => ?_⟩
  obtain ⟨count, attempted, stop, ends, returned, ended⟩ :=
    perform_stopping edition files arguments request image machine starts stops
  have reached := Machine.ends_completes machine request.maxSteps count attempted stop ends
  have counted := (Machine.completes_frame count machine stop.state reached).2
  rw [starts_unstepped files arguments request image machine starts, Nat.zero_add] at counted
  obtain ⟨length, logged⟩ := Machine.entries_of_ends machine request.maxSteps count attempted stop ends
  have log : (endedOutcome edition request image machine count attempted stop).log =
      [.loadedProgram request.program image.length, .startingMachine request.maxSteps] ++
        (machine.attempts attempted).filterMap executeEntry ++
        [.machineStopped stop.state.pc stop.fault, .finalState count stop.state.flag stop.state.registers] := by
    rw [endedOutcome, verbose, Log.filter_trace, counted]
  refine ⟨stop, _, count, _, returned, ended, reached, counted, log, ?_, length, logged⟩
  rw [log, List.map_append, List.map_append, severities_of_entries]
  rfl

theorem refused_load_is_logged :
    ∃ (outcome : Outcome) (final : Machine) (executed : List Log.Entry),
      perform .plain strayLoad ["-vvv", "--max-steps", "5", "prog"] = some outcome ∧
      outcome.log = [.loadedProgram "prog" 6, .startingMachine (some 5)] ++ executed ++
        [.machineStopped 3 (.outOfBounds (.register 8)), .finalState 1 .equal final.registers] ∧
      outcome.log.map Log.Entry.severity = [.debug, .debug, .trace, .trace, .error, .info] := by
  have accepted : Arguments.parse ["-vvv", "--max-steps", "5", "prog"] =
      .ok ⟨"prog", some 5, false, false, .trace⟩ := rfl
  obtain ⟨machine, built, follows⟩ :=
    trace_log_follows_the_run .plain strayLoad _ _ _ accepted rfl rfl (stray_load_loads "prog")
  obtain ⟨stop, outcome, count, executed, returned, ended, -, counted, log, severities, length, -⟩ :=
    follows (Attempt.stops_within machine 5)
  obtain rfl : machine.runFor 5 = stop := Option.some.inj returned
  have final : (machine.runFor 5).fault = .outOfBounds (.register 8) ∧ (machine.runFor 5).state.steps = 1 ∧
      (machine.runFor 5).state.pc = 3 ∧ (machine.runFor 5).state.flag = .equal := by
    obtain rfl := Except.ok.inj built
    decide +kernel
  obtain ⟨fault, steps, counter, flag⟩ := final
  rw [fault, ← counted, steps] at length
  rw [← counted, steps, counter, flag, fault] at log
  rw [length] at severities
  exact ⟨outcome, _, executed, ended, log, severities⟩

end CommandLine

end StoredProgram
