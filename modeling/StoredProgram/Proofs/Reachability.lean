import StoredProgram.Proofs.Faulting
import StoredProgram.Proofs.Loading
import StoredProgram.Proofs.Runners

set_option autoImplicit false

namespace StoredProgram

def Report.fault? (report : Report) : Option Fault :=
  match report.failure with
  | some (.stopped fault) => some fault
  | _ => none

def Reply.faults : Reply → List Fault
  | .report single => single.fault?.toList
  | .reports several => several.filterMap Report.fault?
  | .table _ => []

def Command.image? : Command → Option (List Byte)
  | .load image => some image
  | .loadText text => (Program.parse text).toOption
  | _ => none

namespace Machine

open Attempt

-- What every machine of a session keeps to. The counter is at zero before the first step only, it is never
-- at one, and no jump leads past the highest byte and the two cells of the jump.
structure Sound (machine : Machine) : Prop where
  counter : machine.pc = 0 ∨ 2 ≤ machine.pc ∧ machine.pc ≤ 257
  unstarted : machine.pc = 0 ↔ machine.steps = 0
  recorded : machine.flag ≠ .greater

def Reports (machine : Machine) : Fault → Prop
  | .unknownOpcode byte address =>
      address = .memory machine.pc ∧ machine.pc < 100 ∧ machine.memory.cells[machine.pc]? = some byte
  | .outOfBounds (.memory index) =>
      (index = machine.pc ∧ 100 ≤ index ∧ index ≤ 257) ∨
        (index = 100 ∧ (machine.pc = 98 ∨ machine.pc = 99) ∧
          machine.memory.cells[machine.pc]? = some Opcode.ldi.code)
  | .outOfBounds (.register index) => 8 ≤ index ∧ index ≤ 255
  | .unsupportedOperation _ => False
  | .stepLimitReached _ => False

theorem fresh_sound : fresh.Sound :=
  ⟨.inl rfl, ⟨fun _ => rfl, fun _ => rfl⟩, by decide⟩

theorem sound_over_memory (machine : Machine) (memory : Memory) (sound : machine.Sound) :
    ({ machine with memory } : Machine).Sound :=
  ⟨sound.counter, sound.unstarted, sound.recorded⟩

theorem with_program_sound (image : List Byte) (machine : Machine) (loaded : withProgram image = .ok machine) :
    machine.Sound := by
  by_cases fits : image.length ≤ Memory.capacity
  · rw [with_program_of_fits image fits] at loaded
    cases loaded
    exact sound_over_memory fresh _ fresh_sound
  · rw [with_program_oversized image (Nat.lt_of_not_le fits)] at loaded
    cases loaded

theorem successor_sound (machine next : Machine) (sound : machine.Sound) (done : machine.successor = .ok next) :
    next.Sound := by
  have started := (successor_pc machine next done).2
  have counted := (successor_frame machine next done).2
  refine ⟨.inr ⟨started, successor_pc_le machine next done⟩, by omega, ?_⟩
  exact successor_flag machine next done sound.recorded

theorem completes_sound (count : Nat) (machine final : Machine) (sound : machine.Sound)
    (reached : step.Completes count machine final) : final.Sound := by
  induction reached with
  | none machine => exact sound
  | more done rest ih => exact ih (successor_sound _ _ sound ((step_ok_iff _ _).mp done))

theorem successor_reports (machine : Machine) (fault : Fault) (sound : machine.Sound)
    (faulted : machine.successor = .error fault) : machine.Reports fault := by
  have capacity : Memory.capacity = 100 := rfl
  have counter := sound.counter
  rcases successor_fault_cases machine fault faulted with
    ⟨byte, held, -, rfl⟩ | ⟨outside, rfl⟩ | ⟨held, inside, short, rfl⟩ | ⟨register, low, high, rfl⟩
  · have inside := (List.getElem?_eq_some_iff.mp held).1
    rw [machine.memory.length_cells] at inside
    exact ⟨rfl, inside, held⟩
  · exact .inl ⟨rfl, outside, by omega⟩
  · exact .inr ⟨rfl, by omega, held⟩
  · exact ⟨low, high⟩

theorem advance_reports (machine : Machine) (count : Nat) (fault : Fault)
    (reported : fault ∈ ((machine.attempts count).map .ofStep).filterMap Report.fault?) :
    (step.advance count machine).1.successor = .error fault := by
  obtain ⟨report, reports, stopped⟩ := List.mem_filterMap.mp reported
  obtain ⟨attempted, attempts, rfl⟩ := List.mem_map.mp reports
  obtain ⟨index, within, reached⟩ := (mem_attempts_iff count machine attempted).mp attempts
  rw [report_of_step] at stopped
  cases done : attempted.successor with
  | ok next =>
      rw [done] at stopped
      cases stopped
  | error reason =>
      rw [done] at stopped
      cases stopped
      have faulted := (step_error_iff attempted attempted fault).mpr ⟨done, rfl⟩
      rw [advance_of_faults index count machine ⟨attempted, fault⟩ ⟨attempted, reached, faulted⟩ within]
      exact done

-- All that a command can do to a machine, with the faults that it reports. A command that drives the machine
-- reports a fault of the machine that it leaves, or else the limit of a bounded run; one that is refused
-- counts as driving it by no step.
inductive Effect (machine : Machine) : Command → Machine → List Fault → Prop
  | renewed : Effect machine .new fresh []
  | replaced {image : List Byte} {next : Machine} (loaded : withProgram image = .ok next) :
      Effect machine (.withProgram image) next []
  | written {command : Command} {image : List Byte} {memory : Memory} (source : command.image? = some image)
      (loaded : machine.memory.load image = .ok memory) : Effect machine command { machine with memory } []
  | driven {command : Command} {count : Nat} {next : Machine} {faults : List Fault}
      (reached : step.Completes count machine next)
      (reports : ∀ fault ∈ faults, (∃ limit, command = .runFor limit ∧ fault = .stepLimitReached limit) ∨
        next.successor = .error fault) : Effect machine command next faults

theorem refused_effect (machine : Machine) (command : Command) : Effect machine command machine [] :=
  .driven (.none machine) (List.forall_mem_nil _)

theorem stop_effect (count : Nat) (machine : Machine) (command : Command) (stop : Stop Machine)
    (faults : step.FaultsAfter count machine stop) : Effect machine command stop.state [stop.fault] := by
  refine .driven (faults_after_final count machine stop faults) fun fault reported => .inr ?_
  rw [List.mem_singleton.mp reported]
  exact faults_after_refused count machine stop faults

theorem load_effect (machine : Machine) (command : Command) (image : List Byte)
    (source : command.image? = some image) :
    Effect machine command (Report.ofLoad machine (load image)).machine
      (Reply.report (.ofLoad machine (load image))).faults := by
  rcases report_of_load machine image with ⟨memory, loaded, report⟩ | ⟨error, report⟩
  · rw [report]
    exact .written source loaded
  · rw [report]
    exact refused_effect machine command

theorem perform_effect (command : Command) (machine next : Machine) (reply : Reply)
    (performed : command.perform machine = some (next, reply)) : Effect machine command next reply.faults := by
  cases command with
  | new =>
      cases performed
      exact .renewed
  | withProgram image =>
      rw [Command.perform] at performed
      cases loaded : withProgram image with
      | ok after =>
          rw [loaded] at performed
          cases performed
          exact .replaced loaded
      | error error =>
          rw [loaded] at performed
          cases performed
          exact refused_effect machine _
  | load image =>
      cases performed
      exact load_effect machine _ image rfl
  | loadText text =>
      cases performed
      rcases report_of_load_text machine text with ⟨image, parsed, same⟩ | ⟨error, report⟩
      · rw [same]
        exact load_effect machine _ image (by rw [Command.image?, parsed]; rfl)
      · rw [report]
        exact refused_effect machine _
  | step =>
      rw [Command.perform, report_of_step] at performed
      cases done : machine.successor with
      | ok after =>
          rw [done] at performed
          cases performed
          exact .driven (.more ((step_ok_iff machine after).mpr done) (.none after)) (List.forall_mem_nil _)
      | error fault =>
          rw [done] at performed
          cases performed
          have faulted := (step_error_iff machine machine fault).mpr ⟨done, rfl⟩
          exact stop_effect 0 machine .step ⟨machine, fault⟩ ⟨machine, .none machine, faulted⟩
  | steps count =>
      cases performed
      obtain ⟨done, -, reached, -⟩ := run_for_counts machine count
      rw [run_for_state] at reached
      exact .driven reached fun fault reported => .inr (advance_reports machine count fault reported)
  | run =>
      rw [Command.perform] at performed
      obtain ⟨stop, ended, reported⟩ := Option.bind_eq_some_iff.mp performed
      cases reported
      obtain ⟨count, faults⟩ := (run_eq_some_iff machine stop).mp ended
      exact stop_effect count machine .run stop faults
  | runFor limit =>
      cases performed
      rcases run_for_cases machine limit with ⟨final, reached, ended⟩ | ⟨count, stop, -, faults, ended⟩
      · rw [ended]
        exact .driven reached fun fault reported => .inl ⟨limit, rfl, List.mem_singleton.mp reported⟩
      · rw [ended]
        exact stop_effect count machine (.runFor limit) stop faults
  | display =>
      cases performed
      exact refused_effect machine _

theorem perform_sound (command : Command) (machine next : Machine) (reply : Reply) (sound : machine.Sound)
    (performed : command.perform machine = some (next, reply)) : next.Sound := by
  have effect := perform_effect command machine next reply performed
  generalize reply.faults = faults at effect
  cases effect with
  | renewed => exact fresh_sound
  | replaced loaded => exact with_program_sound _ next loaded
  | written => exact sound_over_memory machine _ sound
  | driven reached => exact completes_sound _ machine next sound reached

theorem session_sound (commands : List Command) (machine final : Machine) (sound : machine.Sound)
    (reached : Session.machineAfter machine commands = some final) : final.Sound := by
  induction commands generalizing machine with
  | nil =>
      cases reached
      exact sound
  | cons command following ih =>
      rw [Session.machineAfter] at reached
      split at reached
      · rename_i next reply performed
        exact ih next (perform_sound command machine next reply sound performed) reached
      · cases reached

theorem perform_reports (command : Command) (machine next : Machine) (reply : Reply) (fault : Fault)
    (sound : machine.Sound) (performed : command.perform machine = some (next, reply))
    (reported : fault ∈ reply.faults) :
    (∃ limit, command = .runFor limit ∧ fault = .stepLimitReached limit) ∨ next.Reports fault := by
  have onward := perform_sound command machine next reply sound performed
  have effect := perform_effect command machine next reply performed
  generalize reply.faults = faults at effect reported
  cases effect with
  | renewed | replaced | written => cases reported
  | driven reached reports =>
      rcases reports fault reported with limited | faulted
      · exact .inl limited
      · exact .inr (successor_reports next fault onward faulted)

theorem address_sum_fits (index distance : Nat) (low : index ≤ 257)
    (short : distance = 1 ∨ distance = 2 ∨ ∃ opcode : Opcode, distance = opcode.size) :
    (Address.memory index).add? distance = some (.memory (index + distance)) ∧
      (Address.register index).add? distance = some (.register (index + distance)) := by
  have fits : index + distance < wordCount := by
    have words : wordCount = 0x10000000000000000 := rfl
    rcases short with rfl | rfl | ⟨opcode, rfl⟩
    · omega
    · omega
    · have size := opcode.size_bounds
      omega
  exact ⟨if_pos fits, if_pos fits⟩

-- The sums are those that a step makes: of the counter, or of the target that a jump has put into it, and of
-- the offset of an operand or the size of an instruction. What a run goes through, an endless one too, are
-- machines of sessions that take single steps.
theorem session_machines_stay_in_range (commands : List Command) (machine : Machine)
    (reached : Session.machineAfter fresh commands = some machine) :
    machine.Sound ∧
    (∀ index distance,
      (index = machine.pc ∨ ∃ register, index = (machine.registers.content register).toNat) →
      (distance = 1 ∨ distance = 2 ∨ ∃ opcode : Opcode, distance = opcode.size) →
      (Address.memory index).add? distance = some (.memory (index + distance)) ∧
        (Address.register index).add? distance = some (.register (index + distance))) ∧
    (∀ fault after, step.run machine = .error fault after → machine.Reports fault) ∧
    (∀ (command : Command) (next : Machine) (reply : Reply) (fault : Fault),
      command.perform machine = some (next, reply) → fault ∈ reply.faults →
      (∀ operation, fault ≠ .unsupportedOperation operation) ∧
      (∀ limit, fault = .stepLimitReached limit → command = .runFor limit) ∧
      ((∃ limit, command = .runFor limit ∧ fault = .stepLimitReached limit) ∨ next.Reports fault)) := by
  have sound := session_sound commands fresh machine fresh_sound reached
  refine ⟨sound, ?_, ?_, ?_⟩
  · intro index distance place short
    refine address_sum_fits index distance ?_ short
    rcases place with rfl | ⟨register, rfl⟩
    · have counter := sound.counter
      omega
    · have byte := (machine.registers.content register).toNat_lt
      omega
  · intro fault after faulted
    exact successor_reports machine fault sound ((step_error_iff machine after fault).mp faulted).1
  · intro command next reply fault performed reported
    have cases := perform_reports command machine next reply fault sound performed reported
    refine ⟨?_, ?_, cases⟩
    · rintro operation rfl
      rcases cases with ⟨limit, -, impossible⟩ | impossible
      · cases impossible
      · exact impossible
    · rintro limit rfl
      rcases cases with ⟨other, limited, same⟩ | impossible
      · cases same
        exact limited
      · exact impossible.elim

theorem jump_past_highest_byte :
    ∃ machine, Session.machineAfter fresh
        [.withProgram [0b10000010, 4, 255, 0b01010100], .runFor 2] = some machine ∧
      machine.pc = 257 ∧ machine.Sound ∧
      step.run machine = .error (.outOfBounds (.memory 257)) machine ∧
      machine.Reports (.outOfBounds (.memory 257)) ∧
      (Address.memory 257).add? 3 = some (.memory 260) := by
  obtain ⟨machine, reached, landed, faulted⟩ :
      ∃ machine, Session.machineAfter fresh
          [.withProgram [0b10000010, 4, 255, 0b01010100], .runFor 2] = some machine ∧
        machine.pc = 257 ∧ step.run machine = .error (.outOfBounds (.memory 257)) machine :=
    ⟨_, rfl, rfl, rfl⟩
  obtain ⟨sound, sums, reports, -⟩ := session_machines_stay_in_range _ machine reached
  have fits := (sums machine.pc 3 (.inl rfl) (.inr (.inr ⟨.ldi, rfl⟩))).1
  rw [landed] at fits
  exact ⟨machine, reached, landed, sound, faulted, reports _ machine faulted, fits⟩

end Machine

end StoredProgram
