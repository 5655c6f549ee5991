import StoredProgram.CommandLine.Process
import StoredProgram.Proofs.Completion

set_option autoImplicit false

namespace StoredProgram

namespace Machine

theorem ends_completes (machine : Machine) (limit : Option Nat) (count attempted : Nat) (stop : Stop Machine)
    (ends : step.Ends machine limit count attempted stop) : step.Completes count machine stop.state := by
  cases ends with
  | faulted faults before => exact faults_after_final count machine stop faults
  | limited reached => exact reached

theorem attempts_cons (machine : Machine) (budget : Nat) :
    machine :: (machine.attempts (budget + 1)).tail = machine.attempts (budget + 1) := by
  rw [attempts_succ, List.tail_cons]

theorem attempts_one (machine : Machine) : machine.attempts 1 = [machine] := by
  rw [attempts_succ]
  cases step.run machine <;> rfl

theorem attempts_of_completes (count : Nat) (machine final : Machine) (reached : step.Completes count machine final) :
    machine.attempts (count + 1) = machine.attempts count ++ [final] := by
  induction reached with
  | none machine => exact machine.attempts_one
  | more done rest ih =>
      rw [attempts_succ, done, attempts_succ, done]
      exact congrArg (_ :: ·) ih

end Machine

namespace CommandLine

theorem execute_entry_of_decoded (machine : Machine) (instruction : Instruction)
    (decoded : Instruction.decode machine.memory.cells machine.pc = .ok instruction) :
    executeEntry machine = some (.execute machine.pc instruction machine.flag) := by
  rw [executeEntry, decoded]

theorem execute_entry_undecoded (machine : Machine) (fault : Fault)
    (undecoded : Instruction.decode machine.memory.cells machine.pc = .error fault) :
    executeEntry machine = none := by
  rw [executeEntry, undecoded]

theorem severity_of_execute_entry (machine : Machine) (entry : Log.Entry)
    (made : executeEntry machine = some entry) : entry.severity = .trace := by
  rw [executeEntry] at made
  split at made
  · cases made
    rfl
  · cases made

theorem severity_of_mem_entries (machines : List Machine) (entry : Log.Entry)
    (member : entry ∈ machines.filterMap executeEntry) : entry.severity = .trace := by
  obtain ⟨machine, -, made⟩ := List.mem_filterMap.mp member
  exact severity_of_execute_entry machine entry made

def Edition.tables : Edition → List Machine → List String
  | .plain, _ => []
  | .traced, machines => machines.map Machine.table

theorem Edition.tables_cons (edition : Edition) (machine : Machine) (machines : List Machine) :
    edition.tables (machine :: machines) = edition.tables [machine] ++ edition.tables machines := by
  cases edition <;> rfl

namespace Process

theorem announce_extended (machine : Machine) (console : Console) :
    announce machine console = console.extended [] (executeEntry machine).toList := by
  unfold announce
  cases made : executeEntry machine with
  | none => simp [Console.extended_nil]
  | some entry =>
      have severity := severity_of_execute_entry machine entry made
      by_cases shown : console.level.shows .trace
      · simp [shown, Console.record_extended]
      · have hidden : console.record entry = console := by
          rw [Console.record, severity, if_neg shown]
        rw [if_neg shown, Option.toList_some, ← Console.record_extended, hidden]

theorem run_on_console (change : Machine → Console → Console) (process : Process) :
    (onConsole change).run process = .ok () { process with console := change process.machine process.console } :=
  rfl

theorem run_on_machine (action : Machine.Action) (process : Process) :
    (onMachine action).run process =
      match action.run process.machine with
      | .ok () machine => .ok () { process with machine }
      | .error fault machine => .error fault { process with machine } :=
  rfl

-- The machine and the process fetch and dispatch alike; where that fails nothing decodes either, so that the
-- entry is missing in exactly the attempts that end before the log is asked.
theorem run_step (edition : Edition) (machine : Machine) (console : Console) :
    (step edition).run ⟨machine, console⟩ =
      match Machine.step.run machine with
      | .ok () next =>
          .ok () ⟨next, console.extended (edition.tables [next]) (executeEntry machine).toList⟩
      | .error fault after => .error fault ⟨after, console.extended [] (executeEntry machine).toList⟩ := by
  have decoding := Instruction.decode_cells machine.memory machine.pc
  cases fetched : machine.memory.read machine.pc with
  | error fault =>
      rw [fetched] at decoding
      have unlogged := execute_entry_undecoded machine fault decoding
      simp [step, Machine.step, fetched, unlogged, Console.extended_nil]
  | ok byte =>
      rw [fetched] at decoding
      dsimp only [Except.bind] at decoding
      cases coded : Opcode.ofByte? byte with
      | none =>
          rw [coded] at decoding
          have unlogged := execute_entry_undecoded machine _ decoding
          simp [step, Machine.step, fetched, coded, unlogged, Console.extended_nil]
      | some opcode =>
          simp only [step, Machine.step, fetched, coded, EStateM.run_bind, EStateM.run_get,
            Attempt.run_lift_ok, run_on_console, run_on_machine, announce_extended]
          cases (Machine.operate opcode).run machine with
          | error fault after => rfl
          | ok _ acted =>
              cases edition with
              | plain => rfl
              | traced =>
                  simp [run_on_console, showState, Console.print_line_extended,
                    Console.extended_extended, Edition.tables]

-- The console after so many completed steps and so many attempted ones, the completed ones among them.
def consoleAfter (edition : Edition) (console : Console) (machine : Machine) (count attempted : Nat) : Console :=
  console.extended (edition.tables (machine.attempts (count + 1)).tail)
    ((machine.attempts attempted).filterMap executeEntry)

theorem console_after_zero (edition : Edition) (console : Console) (machine : Machine) :
    consoleAfter edition console machine 0 0 = console := by
  have none : edition.tables [] = [] := by cases edition <;> rfl
  rw [consoleAfter, Machine.attempts_one, List.tail_cons, none]
  exact console.extended_nil

theorem console_after_done (edition : Edition) (console : Console) (machine next : Machine) (count attempted : Nat)
    (done : Machine.step.run machine = .ok () next) :
    consoleAfter edition (console.extended (edition.tables [next]) (executeEntry machine).toList) next count attempted =
      consoleAfter edition console machine (count + 1) (attempted + 1) := by
  have states : (machine.attempts (count + 2)).tail = next :: (next.attempts (count + 1)).tail := by
    rw [Machine.attempts_cons, Machine.attempts_succ machine, done]
    rfl
  have entries : (machine.attempts (attempted + 1)).filterMap executeEntry =
      (executeEntry machine).toList ++ (next.attempts attempted).filterMap executeEntry := by
    rw [Machine.attempts_succ machine, done]
    cases made : executeEntry machine <;> simp [made]
  rw [consoleAfter, consoleAfter, states, entries, Console.extended_extended, ← Edition.tables_cons]

theorem console_after_last (edition : Edition) (console : Console) (machine last : Machine) (count : Nat)
    (reached : Machine.step.Completes count machine last) :
    (consoleAfter edition console machine count count).extended [] (executeEntry last).toList =
      consoleAfter edition console machine count (count + 1) := by
  have entries : (machine.attempts (count + 1)).filterMap executeEntry =
      (machine.attempts count).filterMap executeEntry ++ (executeEntry last).toList := by
    rw [Machine.attempts_of_completes count machine last reached, List.filterMap_append]
    cases made : executeEntry last <;> simp [made]
  rw [consoleAfter, consoleAfter, entries, Console.extended_extended, List.append_nil]

section Observed

variable {edition : Edition} {machine : Machine} {console : Console}

theorem completes_observed (count : Nat) (final : Machine) (reached : Machine.step.Completes count machine final) :
    (step edition).Completes count ⟨machine, console⟩
      ⟨final, consoleAfter edition console machine count count⟩ := by
  induction reached generalizing console with
  | none machine =>
      rw [console_after_zero]
      exact .none _
  | @more count machine next final done rest ih =>
      rw [← console_after_done edition console machine next count count done]
      refine .more ?_ ih
      rw [run_step, done]

theorem faults_observed (count : Nat) (stop : Stop Machine) (faults : Machine.step.FaultsAfter count machine stop) :
    (step edition).FaultsAfter count ⟨machine, console⟩
      ⟨⟨stop.state, consoleAfter edition console machine count (count + 1)⟩, stop.fault⟩ := by
  obtain ⟨last, reached, faulted⟩ := faults
  refine ⟨_, completes_observed count last reached, ?_⟩
  rw [run_step, faulted, ← console_after_last edition console machine last count reached]

theorem ends_observed (limit : Option Nat) (count attempted : Nat) (stop : Stop Machine)
    (ends : Machine.step.Ends machine limit count attempted stop) :
    (step edition).Ends ⟨machine, console⟩ limit count attempted
      ⟨⟨stop.state, consoleAfter edition console machine count attempted⟩, stop.fault⟩ := by
  cases ends with
  | faulted faults before => exact .faulted (faults_observed count stop faults) before
  | limited reached => exact .limited (completes_observed count _ reached)

theorem endless_observed (limit : Option Nat) (endless : machine.runWithin limit = none) :
    (step edition).runWithin ⟨machine, console⟩ limit = none := by
  obtain ⟨unlimited, unending⟩ := (Attempt.run_within_eq_none_iff machine limit).mp endless
  refine (Attempt.run_within_eq_none_iff _ limit).mpr ⟨unlimited, (Attempt.run_eq_none_iff _).mpr ?_⟩
  intro count
  obtain ⟨final, reached⟩ := (Attempt.run_eq_none_iff machine).mp unending count
  exact ⟨_, completes_observed count final reached⟩

end Observed

end Process

end CommandLine

end StoredProgram
