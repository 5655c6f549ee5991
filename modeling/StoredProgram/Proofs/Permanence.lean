import Mathlib.Data.List.Forall2
import StoredProgram.Proofs.Completion
import StoredProgram.Proofs.Loading

set_option autoImplicit false

namespace StoredProgram

namespace Command

def Attempts : Command → Prop
  | .step => True
  | .run => True
  | .runFor limit => 0 < limit
  | _ => False

def Keeps : Command → Prop
  | .new => False
  | .withProgram image => Memory.capacity < image.length
  | .load image => Memory.capacity < image.length
  | .loadText text => ∀ image, Program.parse text = .ok image → Memory.capacity < image.length
  | _ => True

end Command

namespace Machine

open Attempt

theorem run_load_text_failing (machine : Machine) (text : String) (failing : (Command.loadText text).Keeps) :
    ∃ error, (loadText text).run machine = .error error machine := by
  rw [run_load_text]
  cases parsed : Program.parse text with
  | error error => exact ⟨error, rfl⟩
  | ok image => exact ⟨_, run_load_oversized machine image (failing image parsed)⟩

theorem advance_after_fault (machine : Machine) (fault : Fault) (limit : Nat)
    (faulted : step.run machine = .error fault machine) : (step.advance limit machine).1 = machine := by
  cases limit with
  | zero => rfl
  | succ budget => rw [advance, faulted]

theorem faults_at_once (machine : Machine) (fault : Fault) (faulted : step.run machine = .error fault machine) :
    step.FaultsAfter 0 machine ⟨machine, fault⟩ :=
  ⟨machine, .none machine, faulted⟩

theorem run_after_fault (machine : Machine) (fault : Fault) (faulted : step.run machine = .error fault machine) :
    machine.run = some ⟨machine, fault⟩ :=
  run_of_faults 0 machine _ (faults_at_once machine fault faulted)

theorem perform_keeping (machine : Machine) (fault : Fault) (command : Command)
    (faulted : step.run machine = .error fault machine) (keeps : command.Keeps) :
    ∃ reply, command.perform machine = some (machine, reply) := by
  cases command with
  | new => exact keeps.elim
  | withProgram image =>
      rw [Command.perform, with_program_oversized image keeps]
      exact ⟨_, rfl⟩
  | load image =>
      rw [Command.perform, Report.ofLoad, run_load_oversized machine image keeps]
      exact ⟨_, rfl⟩
  | loadText text =>
      obtain ⟨error, failed⟩ := run_load_text_failing machine text keeps
      rw [Command.perform, Report.ofLoad, failed]
      exact ⟨_, rfl⟩
  | step =>
      rw [Command.perform, Report.ofStep, faulted]
      exact ⟨_, rfl⟩
  | steps count =>
      rw [Command.perform, advance_after_fault machine fault count faulted]
      exact ⟨_, rfl⟩
  | run =>
      rw [Command.perform, run_after_fault machine fault faulted]
      exact ⟨_, rfl⟩
  | runFor limit =>
      have stays : (machine.runFor limit).state = machine := by
        rw [run_for_state, advance_after_fault machine fault limit faulted]
      refine ⟨.report (.ofStop (machine.runFor limit)), ?_⟩
      rw [Command.perform, Command.perform.reportOn]
      exact congrArg (fun final => some (final, _)) stays
  | display => exact ⟨_, rfl⟩

theorem perform_attempting (machine : Machine) (fault : Fault) (command : Command)
    (faulted : step.run machine = .error fault machine) (attempts : command.Attempts) :
    command.perform machine = some (machine, .report ⟨machine, some (.stopped fault)⟩) := by
  cases command with
  | step =>
      rw [Command.perform, Report.ofStep, faulted]
      rfl
  | run =>
      rw [Command.perform, run_after_fault machine fault faulted]
      rfl
  | runFor limit =>
      have stopped : machine.runFor limit = ⟨machine, fault⟩ :=
        run_for_of_faults 0 limit machine _ (faults_at_once machine fault faulted) attempts
      rw [Command.perform, stopped]
      rfl
  | _ => exact attempts.elim

theorem session_after_fault (machine : Machine) (fault : Fault) (commands : List Command)
    (faulted : step.run machine = .error fault machine) (keep : ∀ command ∈ commands, command.Keeps) :
    Session.machineAfter machine commands = some machine ∧
      List.Forall₂ (fun command reply =>
        command.Attempts → reply = .report ⟨machine, some (.stopped fault)⟩)
        commands (Session.replies machine commands) := by
  induction commands with
  | nil => exact ⟨rfl, .nil⟩
  | cons command following ih =>
      obtain ⟨stays, same⟩ := ih fun later member => keep later (List.mem_cons_of_mem command member)
      obtain ⟨reply, performed⟩ := perform_keeping machine fault command faulted (keep command List.mem_cons_self)
      rw [Session.machineAfter, Session.replies, performed]
      refine ⟨stays, .cons ?_ same⟩
      intro attempts
      rw [perform_attempting machine fault command faulted attempts] at performed
      cases performed
      rfl

-- Commands are what a session gives to a machine one after another; the loads that fail are among those
-- that keep it, so that they change nothing for the fault either.
theorem faults_are_atomic_and_permanent (machine : Machine) :
    (∀ fault after, step.run machine = .error fault after →
      after = machine ∧
      ∀ commands, (∀ command ∈ commands, command.Keeps) →
        Session.machineAfter after commands = some machine ∧
          List.Forall₂ (fun command reply =>
            command.Attempts → reply = .report ⟨machine, some (.stopped fault)⟩)
            commands (Session.replies after commands)) ∧
    (∀ image, Memory.capacity < image.length →
      (load image).run machine = .error (.programTooLarge image.length Memory.capacity) machine) ∧
    (∀ text error, Program.parse text = .error error → (loadText text).run machine = .error error machine) ∧
    (∀ text image, Program.parse text = .ok image → Memory.capacity < image.length →
      (loadText text).run machine = .error (.programTooLarge image.length Memory.capacity) machine) := by
  refine ⟨?_, run_load_oversized machine, ?_, ?_⟩
  · intro fault after faulted
    obtain ⟨-, rfl⟩ := (step_error_iff machine after fault).mp faulted
    exact ⟨rfl, fun commands => session_after_fault after fault commands faulted⟩
  · intro text error failed
    rw [run_load_text, failed]
  · intro text image parsed oversized
    rw [run_load_text, parsed]
    exact run_load_oversized machine image oversized

theorem missing_register_faults_for_ever :
    ∃ (machine : Machine) (commands : List Command),
      commands = [.step, .runFor 3, .load (List.replicate 101 0), .run] ∧
      withProgram [0b10000010, 8, 1] = .ok machine ∧
      step.run machine = .error (.outOfBounds (.register 8)) machine ∧
      Session.machineAfter machine commands = some machine ∧
      List.Forall₂ (fun command reply =>
        command.Attempts → reply = .report ⟨machine, some (.stopped (.outOfBounds (.register 8)))⟩)
        commands (Session.replies machine commands) ∧
      (load (List.replicate 101 0)).run machine = .error (.programTooLarge 101 100) machine ∧
      (loadText "12").run machine = .error (.malformedInstruction 1 "12") machine := by
  obtain ⟨machine, loaded, faulted⟩ :
      ∃ machine, withProgram [0b10000010, 8, 1] = .ok machine ∧
        step.run machine = .error (.outOfBounds (.register 8)) machine := ⟨_, rfl, rfl⟩
  have malformed : Program.parse "12" = .error (.malformedInstruction 1 "12") := by cbv
  obtain ⟨permanent, oversized, unparsed, -⟩ := faults_are_atomic_and_permanent machine
  obtain ⟨-, standing⟩ := permanent _ machine faulted
  obtain ⟨stays, same⟩ := standing [.step, .runFor 3, .load (List.replicate 101 0), .run]
    (by simp [Command.Keeps, Memory.capacity])
  exact ⟨machine, _, rfl, loaded, faulted, stays, same, oversized (List.replicate 101 0) (by decide),
    unparsed "12" _ malformed⟩

end Machine

end StoredProgram
