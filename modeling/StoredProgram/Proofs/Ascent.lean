import StoredProgram.Proofs.Horizon

set_option autoImplicit false

namespace StoredProgram.Machine

open Attempt

theorem step_climbs (machine next : Machine) (done : step.run machine = .ok () next) (above : 7 ≤ machine.pc) :
    machine.jumps = false ∧ (next.pc = machine.pc + 2 ∨ next.pc = machine.pc + 3) :=
  successor_climbs machine next ((step_ok_iff machine next).mp done) (Nat.succ_le_succ above)

theorem completes_stays_above (count : Nat) (machine final : Machine) (reached : step.Completes count machine final)
    (above : 7 ≤ machine.pc) : 7 ≤ final.pc := by
  induction reached with
  | none machine => exact above
  | @more count machine next final done rest ih =>
      have climbs := (step_climbs machine next done above).2
      exact ih (by omega)

theorem faults_above (machine : Machine) (above : 7 ≤ machine.pc) :
    ∃ count stop, step.FaultsAfter count machine stop := by
  rcases completes_or_faults 48 machine with ⟨final, reached⟩ | ⟨count, stop, -, faults⟩
  · have climbs := completes_climbs 48 machine final reached (Nat.succ_le_succ above)
    have capacity : Memory.capacity = 100 := rfl
    omega
  · exact ⟨count, stop, faults⟩

theorem jumps_below (machine next : Machine) (done : step.run machine = .ok () next) (taken : machine.jumps) :
    machine.pc ≤ 6 := by
  refine Nat.le_of_not_lt fun above => ?_
  rw [(step_climbs machine next done above).1] at taken
  cases taken

theorem attempts_above (machine : Machine) (budget : Nat) (above : 7 ≤ machine.pc) :
    ∀ attempted ∈ machine.attempts budget, 7 ≤ attempted.pc := by
  intro attempted member
  obtain ⟨index, -, reached⟩ := (mem_attempts_iff budget machine attempted).mp member
  exact completes_stays_above index machine attempted reached above

theorem attempts_low_then_high (machine : Machine) (budget : Nat) :
    ∃ low high, machine.attempts budget = low ++ high ∧ (∀ attempted ∈ low, attempted.pc ≤ 6) ∧
      ∀ attempted ∈ high, 7 ≤ attempted.pc := by
  induction budget generalizing machine with
  | zero => exact ⟨[], [], rfl, nofun, nofun⟩
  | succ budget ih =>
      by_cases above : 7 ≤ machine.pc
      · exact ⟨[], _, rfl, nofun, attempts_above machine (budget + 1) above⟩
      · have below : machine.pc ≤ 6 := Nat.le_of_not_lt above
        rw [attempts_succ]
        cases step.run machine with
        | error fault after => exact ⟨[machine], [], rfl, List.forall_mem_singleton.mpr below, nofun⟩
        | ok _ next =>
            obtain ⟨low, high, parts, lowBelow, highAbove⟩ := ih next
            exact ⟨machine :: low, high, congrArg (machine :: ·) parts,
              List.forall_mem_cons.mpr ⟨below, lowBelow⟩, highAbove⟩

theorem endless_below (count : Nat) (machine reached : Machine) (endless : machine.run = none)
    (completed : step.Completes count machine reached) : reached.pc ≤ 6 := by
  refine Nat.le_of_not_lt fun above => ?_
  obtain ⟨rest, stop, faults⟩ := faults_above reached above
  have ended := run_of_faults _ machine stop (faults_after_add count rest machine reached stop completed faults)
  cases endless.symm.trans ended

theorem no_way_back_above_six (machine : Machine) :
    (7 ≤ machine.pc →
      (∀ next, step.run machine = .ok () next →
        (next.pc = machine.pc + 2 ∨ next.pc = machine.pc + 3) ∧ machine.jumps = false) ∧
      ∃ count stop, count ≤ (100 - machine.pc + 1) / 2 ∧ count ≤ 47 ∧ step.FaultsAfter count machine stop ∧
        machine.run = some stop ∧ step.run stop.state = .error stop.fault stop.state) ∧
    (∀ budget attempted next, attempted ∈ machine.attempts budget →
      step.run attempted = .ok () next → attempted.jumps → attempted.pc ≤ 6) ∧
    (∀ budget, ∃ low high, machine.attempts budget = low ++ high ∧
      (∀ attempted ∈ low, attempted.pc ≤ 6) ∧ ∀ attempted ∈ high, 7 ≤ attempted.pc) ∧
    (machine.run = none → ∀ count reached, step.Completes count machine reached → reached.pc ≤ 6) := by
  refine ⟨?_, ?_, attempts_low_then_high machine, ?_⟩
  · intro above
    refine ⟨?_, ?_⟩
    · intro next done
      exact (step_climbs machine next done above).symm
    · obtain ⟨count, stop, faults⟩ := faults_above machine above
      have few := faults_soon_above count machine stop faults above
      refine ⟨count, stop, few, by omega, faults, run_of_faults count machine stop faults, ?_⟩
      exact (step_error_iff _ _ _).mpr ⟨faults_after_refused count machine stop faults, rfl⟩
  · intro budget attempted next _ done taken
    exact jumps_below attempted next done taken
  · intro endless count reached completed
    exact endless_below count machine reached endless completed

def untakenJumps : Machine :=
  { fresh with memory := ⟨List.replicate 100 Opcode.jeq.code, List.length_replicate⟩, pc := 7, flag := .less }

theorem untaken_jumps_climb_out_of_memory :
    (7 ≤ untakenJumps.pc ∧
      ∃ stop, untakenJumps.run = some stop ∧ stop.state.pc = 101 ∧ stop.state.steps = 47) ∧
    ∃ machine, withProgram [0b10000010, 4, 1, 0b01010100] = .ok machine ∧ machine.run = none ∧
      ∀ count reached, step.Completes count machine reached → reached.pc ≤ 6 := by
  refine ⟨?_, ?_⟩
  · have above : 7 ≤ untakenJumps.pc := by decide
    obtain ⟨-, count, stop, -, few, faults, ended, -⟩ := (no_way_back_above_six untakenJumps).1 above
    have final : (untakenJumps.runFor 48).state.pc = 101 ∧ (untakenJumps.runFor 48).state.steps = 47 := by
      decide +kernel
    have late : untakenJumps.runFor 48 = stop := run_for_of_faults count 48 _ stop faults (by omega)
    rw [late] at final
    exact ⟨above, stop, ended, final⟩
  · obtain ⟨machine, loaded⟩ : ∃ machine, withProgram [0b10000010, 4, 1, 0b01010100] = .ok machine :=
      ⟨_, rfl⟩
    have endless : machine.endless := by
      obtain rfl := Except.ok.inj loaded
      decide +kernel
    have unfaulted := (endless_iff machine).mp endless
    exact ⟨machine, loaded, unfaulted, (no_way_back_above_six machine).2.2.2 unfaulted⟩

end StoredProgram.Machine
