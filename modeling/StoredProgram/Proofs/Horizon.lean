import Mathlib.Data.Finset.Card
import Mathlib.Data.Finset.Prod
import Mathlib.Order.Interval.Finset.Nat
import StoredProgram.Proofs.Completion
import StoredProgram.Proofs.Loading

/-!
The horizon: a run that faults at all does so before `horizon` steps are completed. Execution never comes
back from an address above 6, and leaves memory from there within 47 steps. Up to that address a program
counter, a flag and one of two register files are all that tells two machines of a run apart, and a run
that faults is never at the same combination twice.
-/

set_option autoImplicit false

namespace StoredProgram.Machine

open Attempt

theorem completes_climbs (count : Nat) (machine final : Machine) (reached : step.Completes count machine final)
    (above : Registers.count ≤ machine.pc + 1) :
    count = 0 ∨ machine.pc + 2 * count < Memory.capacity + 2 := by
  induction reached with
  | none machine => exact .inl rfl
  | @more count machine next final done rest ih =>
      have continued := (step_ok_iff machine next).mp done
      have inside := (successor_pc machine next continued).1
      have climbs := (successor_climbs machine next continued above).2
      rcases ih (by omega) with rfl | bound
      · exact .inr (by omega)
      · exact .inr (by omega)

theorem completes_recount (count steps : Nat) (machine final : Machine)
    (reached : step.Completes count machine final) :
    step.Completes count { machine with steps } { final with steps := steps + count } := by
  induction reached generalizing steps with
  | none machine => exact .none _
  | @more count machine next final done rest ih =>
      have continued := (step_ok_iff machine next).mp done
      refine .more ((step_ok_iff _ { next with steps := steps + 1 }).mpr ?_) ?_
      · rw [successor_recount, continued]
        rfl
      · have onward := ih (steps + 1)
        rw [Nat.add_assoc, Nat.add_comm 1] at onward
        exact onward

theorem faults_after_recount (count steps : Nat) (machine : Machine) (stop : Stop Machine)
    (faults : step.FaultsAfter count machine stop) :
    step.FaultsAfter count { machine with steps }
      ⟨{ stop.state with steps := steps + count }, stop.fault⟩ := by
  obtain ⟨last, reached, faulted⟩ := faults
  refine ⟨_, completes_recount count steps machine last reached, ?_⟩
  obtain ⟨refused, unchanged⟩ := (step_error_iff last stop.state stop.fault).mp faulted
  rw [step_error_iff, successor_recount, refused, unchanged]
  exact ⟨rfl, rfl⟩

def configuration (machine : Machine) : Nat × Flag × Registers :=
  (machine.pc, machine.flag, machine.registers)

theorem configuration_once (count first second : Nat) (machine early late : Machine) (stop : Stop Machine)
    (faults : step.FaultsAfter count machine stop) (before : step.Completes first machine early)
    (after : step.Completes second machine late) (same : early.configuration = late.configuration) :
    first = second := by
  obtain ⟨rest, total, faultsEarly⟩ := faults_after_rest count first machine early stop faults before
  obtain ⟨restToo, totalToo, faultsLate⟩ := faults_after_rest count second machine late stop faults after
  have recounted : { early with steps := late.steps } = late := by
    have memory := (completes_frame first machine early before).1
    have memoryToo := (completes_frame second machine late after).1
    simp only [configuration, Prod.mk.injEq] at same
    cases early
    cases late
    simp_all
  have faultsToo := faults_after_recount rest late.steps early stop faultsEarly
  rw [recounted] at faultsToo
  have equal := (faults_after_unique rest restToo late _ stop faultsToo faultsLate).1
  omega

-- The registers after the one load that a loop can carry out: it ends below 7 and starts at 2 or 3. A
-- load at 3 leaves none at 2, since that would put its value into a register numbered by an opcode.
def reloaded (memory : Memory) (registers : Registers) : Registers :=
  match Instruction.decode memory.cells 3 with
  | .ok (.load register value) => registers.replace register.toNat value
  | _ =>
      match Instruction.decode memory.cells 2 with
      | .ok (.load register value) => registers.replace register.toNat value
      | _ => registers

theorem reloaded_reloaded (memory : Memory) (registers : Registers) :
    reloaded memory (reloaded memory registers) = reloaded memory registers := by
  unfold reloaded
  split
  · simp [Registers.replace]
  · split <;> simp [Registers.replace]

theorem reloaded_of_load (memory : Memory) (registers : Registers) (address : Nat) (register value : Byte)
    (decoded : Instruction.decode memory.cells address = .ok (.load register value))
    (inside : register.toNat < Registers.count) (place : address = 2 ∨ address = 3) :
    reloaded memory registers = registers.replace register.toNat value := by
  rcases place with rfl | rfl
  · unfold reloaded
    split
    · rename_i other otherValue overlapping
      have operand := (Instruction.decode_load _ _ _ _ decoded).2.1
      have opcode := (Instruction.decode_load _ _ _ _ overlapping).1
      rw [opcode] at operand
      cases operand
      exact absurd inside (by decide)
    · rw [decoded]
  · unfold reloaded
    rw [decoded]

theorem successor_registers_below (machine next : Machine) (done : machine.successor = .ok next)
    (entered : 2 ≤ machine.pc) (low : next.pc < 7) :
    next.registers = machine.registers ∨ next.registers = reloaded machine.memory machine.registers := by
  obtain ⟨instruction, acted, decoded, executed, rfl⟩ := (successor_eq_ok_iff machine next).mp done
  rcases execute_registers machine acted instruction executed with kept | ⟨register, value, rfl, inside, put⟩
  · exact .inl kept
  · right
    have moved : acted.pc = machine.pc + 3 := by
      rcases execute_pc machine acted _ executed with ⟨-, pc⟩ | ⟨_, _, impossible, _⟩
      · exact pc.trans (congrArg (machine.pc + ·) Opcode.ldi_size)
      · cases impossible
    change acted.pc < 7 at low
    exact put.trans (reloaded_of_load _ _ machine.pc register value decoded inside (by omega)).symm

def configurations (machine : Machine) : Finset (Nat × Flag × Registers) :=
  Finset.Icc 2 6 ×ˢ Flag.all.toFinset ×ˢ {machine.registers, reloaded machine.memory machine.registers}

theorem card_configurations (machine : Machine) : machine.configurations.card ≤ 40 := by
  have files : ({machine.registers, reloaded machine.memory machine.registers} : Finset Registers).card ≤ 2 :=
    Finset.card_le_two
  have flags : Flag.all.toFinset.card = 4 := by decide
  simp only [configurations, Finset.card_product, Nat.card_Icc, flags]
  omega

theorem configuration_mem_iff (first machine : Machine) :
    machine.configuration ∈ first.configurations ↔
      (2 ≤ machine.pc ∧ machine.pc < 7) ∧
        (machine.registers = first.registers ∨
          machine.registers = reloaded first.memory first.registers) := by
  have flag : machine.flag ∈ Flag.all := by cases machine.flag <;> decide
  simp [configuration, configurations, flag, Nat.lt_succ_iff]

theorem configuration_mem (count : Nat) (first machine : Machine) (entered : 2 ≤ first.pc)
    (reached : step.Completes count first machine)
    (low : ∀ done middle, done ≤ count → step.Completes done first middle → middle.pc < 7) :
    machine.configuration ∈ first.configurations := by
  -- The induction follows the steps: a machine that stays below 7 has the registers of the first one, with
  -- the load of the loop carried out or not.
  induction count generalizing machine with
  | zero =>
      obtain rfl := (completes_zero_iff first machine).mp reached
      exact (configuration_mem_iff machine machine).mpr
        ⟨⟨entered, low 0 machine (Nat.le_refl 0) reached⟩, .inl rfl⟩
  | succ count ih =>
      obtain ⟨middle, before, onward⟩ := (completes_add_iff count 1 first machine).mp reached
      obtain ⟨next, done, rest⟩ := (completes_succ_iff 0 middle machine).mp onward
      obtain rfl := (completes_zero_iff next machine).mp rest
      have member := ih middle before fun done middle within => low done middle (Nat.le_succ_of_le within)
      obtain ⟨⟨inside, -⟩, files⟩ := (configuration_mem_iff first middle).mp member
      have continued := (step_ok_iff middle machine).mp done
      have below := low (count + 1) machine (Nat.le_refl _) reached
      have memory := (completes_frame count first middle before).1
      refine (configuration_mem_iff first machine).mpr
        ⟨⟨(successor_pc middle machine continued).2, below⟩, ?_⟩
      rcases successor_registers_below middle machine continued inside below with kept | put
      · rw [kept]
        exact files
      · rw [put, memory]
        rcases files with same | loaded
        · exact .inr (congrArg (reloaded first.memory) same)
        · rw [loaded]
          exact .inr (reloaded_reloaded first.memory first.registers)

theorem faults_soon_above (count : Nat) (machine : Machine) (stop : Stop Machine)
    (faults : step.FaultsAfter count machine stop) (above : 7 ≤ machine.pc) :
    count ≤ (100 - machine.pc + 1) / 2 := by
  have final := faults_after_final count machine stop faults
  have climbs := completes_climbs count machine stop.state final (Nat.succ_le_succ above)
  have capacity : Memory.capacity = 100 := rfl
  omega

-- Forty combinations are open to a machine below 7, so that forty-one machines cannot all differ.
theorem faults_soon_below (count : Nat) (first : Machine) (stop : Stop Machine) (entered : 2 ≤ first.pc)
    (faults : step.FaultsAfter count first stop)
    (low : ∀ done middle, done ≤ 40 → step.Completes done first middle → middle.pc < 7) : count < 40 := by
  refine Nat.lt_of_not_le fun long => ?_
  have states : ∀ done, ∃ middle, done ≤ 40 → step.Completes done first middle := by
    intro done
    by_cases within : done ≤ 40
    · obtain ⟨middle, reached⟩ := completes_before_fault count done first stop faults (within.trans long)
      exact ⟨middle, fun _ => reached⟩
    · exact ⟨first, fun impossible => absurd impossible within⟩
  choose state reaches using states
  have member : ∀ done ∈ Finset.range 41, (state done).configuration ∈ first.configurations := by
    intro done inside
    have within := Nat.le_of_lt_succ (Finset.mem_range.mp inside)
    exact configuration_mem done first (state done) entered (reaches done within)
      fun earlier middle before => low earlier middle (before.trans within)
  have fewer : first.configurations.card < (Finset.range 41).card := by
    have bound := first.card_configurations
    rw [Finset.card_range]
    omega
  obtain ⟨early, earlyInside, late, lateInside, different, same⟩ :=
    Finset.exists_ne_map_eq_of_card_lt_of_maps_to fewer member
  have earlyReached := reaches early (Nat.le_of_lt_succ (Finset.mem_range.mp earlyInside))
  have lateReached := reaches late (Nat.le_of_lt_succ (Finset.mem_range.mp lateInside))
  exact different (configuration_once count early late first _ _ stop faults earlyReached lateReached same)

theorem faults_before_horizon (count : Nat) (machine : Machine) (stop : Stop Machine)
    (faults : step.FaultsAfter count machine stop) : count < horizon := by
  have bound : horizon = 100 := rfl
  cases count with
  | zero => omega
  | succ count =>
      obtain ⟨last, reached, faulted⟩ := faults
      obtain ⟨first, done, onward⟩ := (completes_succ_iff count machine last).mp reached
      have entered := (successor_pc machine first ((step_ok_iff machine first).mp done)).2
      have faults : step.FaultsAfter count first stop := ⟨last, onward, faulted⟩
      by_cases low : ∀ done middle, done ≤ 40 → step.Completes done first middle → middle.pc < 7
      · have soon := faults_soon_below count first stop entered faults low
        omega
      · push Not at low
        obtain ⟨early, middle, within, before, above⟩ := low
        obtain ⟨rest, total, faultsThence⟩ := faults_after_rest count early first middle stop faults before
        have soon := faults_soon_above rest middle stop faultsThence above
        omega

theorem completes_past_horizon (machine final : Machine) (reached : step.Completes horizon machine final) :
    ∀ count, ∃ further, step.Completes count machine further := by
  intro count
  rcases completes_or_faults count machine with further | ⟨before, stop, -, faults⟩
  · exact further
  · have short := faults_before_horizon before machine stop faults
    have long := completes_le_faults_after before horizon machine final stop faults reached
    omega

theorem endless_iff (machine : Machine) : machine.endless ↔ machine.run = none := by
  rw [run_eq_none_iff, endless]
  constructor
  · intro unfinished
    rcases completes_or_faults horizon machine with ⟨final, reached⟩ | ⟨before, stop, within, faults⟩
    · exact completes_past_horizon machine final reached
    · rw [advance_of_faults before horizon machine stop faults within] at unfinished
      cases unfinished
  · intro completes
    obtain ⟨final, reached⟩ := completes horizon
    rw [advance_of_completes horizon machine final reached]
    rfl

theorem steps_before_horizon (count : Nat) (machine : Machine) (stop : Stop Machine)
    (faults : step.FaultsAfter count machine stop) : stop.state.steps < machine.steps + horizon := by
  have short := faults_before_horizon count machine stop faults
  have counted := (completes_frame count machine stop.state (faults_after_final count machine stop faults)).2
  omega

theorem hundred_steps_decide_divergence (image : List Byte) (fits : image.length ≤ Memory.capacity) :
    ∃ machine, withProgram image = .ok machine ∧
      ((machine.runFor 100).fault = .stepLimitReached 100 →
        (∀ limit, (machine.runFor limit).fault = .stepLimitReached limit) ∧ machine.run = none) ∧
      (∀ stop, machine.run = some stop → stop.state.steps < 100) ∧
      (∀ limit, (machine.runFor limit).fault ≠ .stepLimitReached limit →
        (machine.runFor limit).state.steps < 100) := by
  refine ⟨_, with_program_of_fits image fits, ?_, ?_, ?_⟩
  · intro limited
    obtain ⟨final, reached⟩ := (run_for_limited_iff _ 100).mp limited
    have further := completes_past_horizon _ final reached
    exact ⟨fun limit => (run_for_limited_iff _ limit).mpr (further limit), (run_eq_none_iff _).mpr further⟩
  · intro stop ended
    obtain ⟨count, faults⟩ := (run_eq_some_iff _ stop).mp ended
    exact steps_before_horizon count _ stop faults
  · intro limit unlimited
    rcases run_for_cases _ limit with ⟨final, -, ended⟩ | ⟨count, stop, -, faults, ended⟩
    · rw [ended] at unlimited
      exact absurd rfl unlimited
    · rw [ended]
      exact steps_before_horizon count _ stop faults

theorem jump_to_itself_never_faults :
    ∃ machine, withProgram [0b10000010, 4, 1, 0b01010100] = .ok machine ∧
      (machine.runFor 100).fault = .stepLimitReached 100 ∧
      (∀ limit, (machine.runFor limit).fault = .stepLimitReached limit) ∧ machine.run = none := by
  obtain ⟨machine, loaded, decided, -, -⟩ :=
    hundred_steps_decide_divergence [0b10000010, 4, 1, 0b01010100] (by decide)
  have limited : (machine.runFor 100).fault = .stepLimitReached 100 := by
    obtain rfl := Except.ok.inj loaded
    decide +kernel
  exact ⟨machine, loaded, limited, decided limited⟩

end StoredProgram.Machine
