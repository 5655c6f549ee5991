import StoredProgram.Proofs.Completion
import StoredProgram.Session

set_option autoImplicit false

namespace StoredProgram.Machine

open Attempt

def singleSteps : Nat → Machine → List Report
  | 0, _ => []
  | budget + 1, machine =>
      match step.run machine with
      | .ok () next => ⟨next, none⟩ :: singleSteps budget next
      | .error fault after => [⟨after, some (.stopped fault)⟩]

theorem report_of_step (machine : Machine) :
    Report.ofStep machine =
      match machine.successor with
      | .ok next => ⟨next, none⟩
      | .error fault => ⟨machine, some (.stopped fault)⟩ := by
  rw [Report.ofStep, run_step]
  cases machine.successor <;> rfl

theorem run_for_state_succ (machine next : Machine) (budget : Nat)
    (done : step.run machine = .ok () next) :
    (machine.runFor (budget + 1)).state = (next.runFor budget).state := by
  rw [run_for_state, run_for_state, advance, done]

theorem run_for_state_refused (machine after : Machine) (fault : Fault) (budget : Nat)
    (refused : step.run machine = .error fault after) : (machine.runFor (budget + 1)).state = after := by
  rw [run_for_state, advance, refused]

theorem single_steps_reports (machine : Machine) (budget : Nat) :
    singleSteps budget machine = (machine.attempts budget).map .ofStep := by
  induction budget generalizing machine with
  | zero => rfl
  | succ budget ih =>
      rw [attempts_succ, singleSteps, List.map_cons, Report.ofStep]
      cases step.run machine with
      | error fault after => rfl
      | ok _ next => exact congrArg (⟨next, none⟩ :: ·) (ih next)

theorem attempts_then_final (machine : Machine) (budget : Nat) :
    machine.attempts budget ++ [(machine.runFor budget).state] =
      machine :: (singleSteps budget machine).map Report.machine := by
  induction budget generalizing machine with
  | zero => rfl
  | succ budget ih =>
      rw [attempts_succ, singleSteps]
      cases ran : step.run machine with
      | error fault after =>
          rw [run_for_state_refused machine after fault budget ran]
          obtain ⟨-, rfl⟩ := (step_error_iff machine after fault).mp ran
          rfl
      | ok _ next =>
          rw [run_for_state_succ machine next budget ran]
          exact congrArg (machine :: ·) (ih next)

theorem single_steps_path (machine : Machine) (budget index : Nat) (report : Report)
    (reported : (singleSteps budget machine)[index]? = some report) :
    report.machine = (machine.runFor (index + 1)).state := by
  induction budget generalizing machine index with
  | zero => simp [singleSteps] at reported
  | succ budget ih =>
      rw [singleSteps] at reported
      cases ran : step.run machine with
      | error fault after =>
          rw [ran] at reported
          cases index with
          | zero =>
              cases reported
              exact (run_for_state_refused machine after fault 0 ran).symm
          | succ index => simp at reported
      | ok _ next =>
          rw [ran] at reported
          rw [run_for_state_succ machine next index ran]
          cases index with
          | zero =>
              cases reported
              rfl
          | succ index => exact ih next index reported

theorem length_attempts_of_completes (count : Nat) (machine final : Machine)
    (reached : step.Completes count machine final) : (machine.attempts count).length = count := by
  induction reached with
  | none machine => rfl
  | more done rest ih =>
      rw [attempts_succ, done]
      exact congrArg (· + 1) ih

theorem run_for_add (machine : Machine) (first second : Nat) :
    machine.runFor (first + second) =
      if (machine.runFor first).fault = .stepLimitReached first then
        let rest := (machine.runFor first).state.runFor second
        if rest.fault = .stepLimitReached second then
          ⟨rest.state, .stepLimitReached (first + second)⟩
        else rest
      else machine.runFor first := by
  rcases run_for_cases machine first with ⟨middle, reached, ended⟩ | ⟨count, stop, within, faults, ended⟩
  · rw [ended, if_pos rfl]
    dsimp only
    rcases run_for_cases middle second with ⟨final, onward, endedToo⟩ | ⟨rest, stop, beyond, faults, endedToo⟩
    · rw [endedToo, if_pos rfl]
      exact run_for_of_completes _ machine final
        ((completes_add_iff first second machine final).mpr ⟨middle, reached, onward⟩)
    · rw [endedToo, if_neg (faults_after_ne_step_limit rest second middle stop faults)]
      exact run_for_of_faults (first + rest) _ machine stop
        (faults_after_add first rest machine middle stop reached faults) (by omega)
  · rw [ended, if_neg (faults_after_ne_step_limit count first machine stop faults)]
    exact run_for_of_faults count _ machine stop faults (by omega)

theorem run_for_counts (machine : Machine) (limit : Nat) :
    ∃ count, count ≤ limit ∧ step.Completes count machine (machine.runFor limit).state ∧
      (machine.runFor limit).state.steps = machine.steps + count ∧
      (count < limit → step.FaultsAfter count machine (machine.runFor limit)) := by
  rcases run_for_cases machine limit with ⟨final, reached, ended⟩ | ⟨count, stop, within, faults, ended⟩
  · rw [ended]
    exact ⟨limit, Nat.le_refl limit, reached, (completes_frame limit machine final reached).2,
      fun impossible => absurd impossible (Nat.lt_irrefl limit)⟩
  · have reached := faults_after_final count machine stop faults
    rw [ended]
    exact ⟨count, Nat.le_of_lt within, reached, (completes_frame count machine stop.state reached).2,
      fun _ => faults⟩

theorem runners_agree_with_single_steps (machine : Machine) :
    (∀ count stop, step.FaultsAfter count machine stop →
      machine.run = some stop ∧
      (∀ limit, count < limit → machine.runFor limit = stop) ∧
      (∀ limit, limit ≤ count → ∃ reached, step.Completes limit machine reached ∧
        machine.runFor limit = ⟨reached, .stepLimitReached limit⟩ ∧
        (machine.attempts limit).length = limit)) ∧
    (∀ first second, machine.runFor (first + second) =
      if (machine.runFor first).fault = .stepLimitReached first then
        let rest := (machine.runFor first).state.runFor second
        if rest.fault = .stepLimitReached second then
          ⟨rest.state, .stepLimitReached (first + second)⟩
        else rest
      else machine.runFor first) ∧
    (∀ stop, machine.run = some stop → ∃ count, step.FaultsAfter count machine stop ∧
      stop.state.steps = machine.steps + count) ∧
    (∀ limit, ∃ count, count ≤ limit ∧ step.Completes count machine (machine.runFor limit).state ∧
      (machine.runFor limit).state.steps = machine.steps + count ∧
      (count < limit → step.FaultsAfter count machine (machine.runFor limit))) ∧
    (∀ limit, machine.attempts limit ++ [(machine.runFor limit).state] =
      machine :: (singleSteps limit machine).map Report.machine) ∧
    (∀ limit index report, (singleSteps limit machine)[index]? = some report →
      report.machine = (machine.runFor (index + 1)).state) ∧
    (∀ limit, (Command.steps limit).perform machine =
      some ((machine.runFor limit).state, .reports (singleSteps limit machine))) := by
  refine ⟨?_, run_for_add machine, ?_, run_for_counts machine, attempts_then_final machine,
    single_steps_path machine, ?_⟩
  · intro count stop faults
    refine ⟨run_of_faults count machine stop faults, ?_, ?_⟩
    · exact fun limit beyond => run_for_of_faults count limit machine stop faults beyond
    · intro limit within
      obtain ⟨reached, early⟩ := completes_before_fault count limit machine stop faults within
      exact ⟨reached, early, run_for_of_completes limit machine reached early,
        length_attempts_of_completes limit machine reached early⟩
  · intro stop ended
    obtain ⟨count, faults⟩ := (run_eq_some_iff machine stop).mp ended
    have reached := faults_after_final count machine stop faults
    exact ⟨count, faults, (completes_frame count machine stop.state reached).2⟩
  · intro limit
    rw [Command.perform, single_steps_reports, run_for_state]

theorem comparison_runners_agree :
    ∃ machine stop,
      withProgram [0b10000010, 0, 3, 0b10000010, 1, 5, 0b10100111, 0, 0, 0xff] = .ok machine ∧
      step.FaultsAfter 3 machine stop ∧ machine.run = some stop ∧ machine.runFor 4 = stop ∧
      (machine.runFor 3).fault = .stepLimitReached 3 ∧ stop.state.steps = 3 ∧
      ∃ report, (singleSteps 5 machine)[3]? = some report ∧ report.machine = stop.state := by
  obtain ⟨machine, stop, report, loaded, faults, fresh, reported⟩ :
      ∃ machine stop report,
        withProgram [0b10000010, 0, 3, 0b10000010, 1, 5, 0b10100111, 0, 0, 0xff] = .ok machine ∧
        step.FaultsAfter 3 machine stop ∧ machine.steps = 0 ∧ (singleSteps 5 machine)[3]? = some report :=
    ⟨_, ⟨_, _⟩, _, rfl, ⟨_, .more rfl (.more rfl (.more rfl (.none _))), rfl⟩, rfl, rfl⟩
  obtain ⟨ends, -, returned, -, -, path, -⟩ := runners_agree_with_single_steps machine
  obtain ⟨ran, late, early⟩ := ends 3 stop faults
  obtain ⟨reached, -, limited, -⟩ := early 3 (Nat.le_refl 3)
  obtain ⟨count, faultsToo, counted⟩ := returned stop ran
  have three := (faults_after_unique count 3 machine stop stop faultsToo faults).1
  have last := late 4 (by decide)
  refine ⟨machine, stop, loaded, faults, ran, last, by rw [limited], by omega, report, reported, ?_⟩
  rw [path 5 3 report reported, last]

end StoredProgram.Machine
