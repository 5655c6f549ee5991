import StoredProgram.Machine.Basic
import StoredProgram.Proofs.Decoding

set_option autoImplicit false

namespace StoredProgram

namespace Instruction

def complete (memory : Memory) (address : Nat) : Opcode → Except Fault Instruction
  | .ldi =>
      (memory.read (address + 1)).bind fun register =>
        (memory.read (address + 2)).map fun value => .load register value
  | .cmp => .ok .compare
  | .jmp => .ok (.jump .always (address + 1))
  | .jeq => .ok (.jump .ifEqual (address + 1))
  | .jne => .ok (.jump .ifClear (address + 1))

-- Decoding works on a list of bytes, a machine on single cells: the two read the same cells in the
-- same order, and the first one that is missing decides the fault.
theorem decode_cells (memory : Memory) (address : Nat) :
    decode memory.cells address =
      (memory.read address).bind fun byte =>
        match Opcode.ofByte? byte with
        | none => .error (.unknownOpcode byte (.memory address))
        | some opcode => complete memory address opcode := by
  have first : memory.cells[address]? = (memory.cells.drop address)[0]? := by simp
  have second : memory.cells[address + 1]? = (memory.cells.drop address)[1]? := by simp
  have third : memory.cells[address + 2]? = (memory.cells.drop address)[2]? := by simp
  simp only [decode, complete.eq_def, Memory.read, first, second, third]
  cases memory.cells.drop address with
  | nil => rfl
  | cons byte operands =>
      change decodeAt address (byte :: operands) = _
      cases coded : Opcode.ofByte? byte with
      | none => simp [decodeAt, coded, Except.bind]
      | some opcode =>
          cases opcode with
          | ldi =>
              rcases operands with _ | ⟨register, _ | ⟨value, rest⟩⟩ <;>
                simp [decodeAt, coded, Except.bind, Except.map]
          | cmp => simp [decodeAt, coded, Except.bind]
          | jmp => simp [decodeAt, coded, Except.bind]
          | jeq => simp [decodeAt, coded, Except.bind]
          | jne => simp [decodeAt, coded, Except.bind]

end Instruction

namespace Machine

open Attempt

-- What an instruction does to a machine, told without a look into memory. Only a jump that asks for an
-- equal flag and is not taken can do without its register.
def execute (machine : Machine) : Instruction → Except Fault Machine
  | .load register value =>
      if register.toNat < Registers.count then
        .ok { machine with
          registers := machine.registers.replace register.toNat value
          pc := machine.pc + Opcode.ldi.size }
      else .error (.outOfBounds (.register register.toNat))
  | .compare =>
      .ok { machine with
        flag := Alu.compare (machine.registers.content 0) (machine.registers.content 1)
        pc := machine.pc + Opcode.cmp.size }
  | .jump condition register =>
      if (condition ≠ .ifEqual ∨ condition.holds machine.flag) ∧ Registers.count ≤ register then
        .error (.outOfBounds (.register register))
      else
        .ok { machine with
          pc := (if condition.holds machine.flag then (machine.registers.content register).toNat
            else machine.pc) + condition.opcode.size }

def counted (machine : Machine) : Machine :=
  { machine with steps := machine.steps + 1 }

def successor (machine : Machine) : Except Fault Machine :=
  ((Instruction.decode machine.memory.cells machine.pc).bind machine.execute).map counted

theorem run_load_immediate (machine : Machine) :
    loadImmediate.run machine =
      settled machine ((Instruction.complete machine.memory machine.pc .ldi).bind machine.execute) := by
  unfold loadImmediate Instruction.complete
  cases first : machine.memory.read (machine.pc + 1) with
  | error fault => simp [first, settled, Except.bind]
  | ok register =>
      cases second : machine.memory.read (machine.pc + 2) with
      | error fault => simp [first, second, settled, Except.bind, Except.map]
      | ok value =>
          by_cases inside : register.toNat < Registers.count <;>
            simp [first, second, inside, Registers.set, execute, settled, Except.bind, Except.map]

theorem run_compare (machine : Machine) :
    compare.run machine = settled machine (machine.execute .compare) := by
  have first := machine.registers.get_of_lt 0 (by decide)
  have second := machine.registers.get_of_lt 1 (by decide)
  simp [compare, first, second, Alu.run, execute, settled]

theorem run_jump (machine : Machine) :
    jump.run machine = settled machine (machine.execute (.jump .always (machine.pc + 1))) := by
  unfold jump
  by_cases inside : machine.pc + 1 < Registers.count
  · have target := machine.registers.get_of_lt _ inside
    simp [target, Nat.not_le.mpr inside, execute, Condition.holds, Condition.opcode, settled]
  · have outside := Nat.not_lt.mp inside
    simp [machine.registers.get_of_le _ outside, outside, execute, settled]

theorem run_jump_if_equal (machine : Machine) :
    jumpIfEqual.run machine = settled machine (machine.execute (.jump .ifEqual (machine.pc + 1))) := by
  unfold jumpIfEqual
  by_cases equal : machine.flag = .equal
  · by_cases inside : machine.pc + 1 < Registers.count
    · have target := machine.registers.get_of_lt _ inside
      simp [equal, target, Nat.not_le.mpr inside, execute, Condition.holds, Condition.opcode, settled]
    · have outside := Nat.not_lt.mp inside
      simp [equal, machine.registers.get_of_le _ outside, outside, execute, Condition.holds, settled]
  · simp [equal, execute, Condition.holds, Condition.opcode, settled]

theorem run_jump_if_clear (machine : Machine) :
    jumpIfClear.run machine = settled machine (machine.execute (.jump .ifClear (machine.pc + 1))) := by
  unfold jumpIfClear
  by_cases inside : machine.pc + 1 < Registers.count
  · have target := machine.registers.get_of_lt _ inside
    by_cases clear : machine.flag = .clear <;>
      simp [target, clear, Nat.not_le.mpr inside, execute, Condition.holds, Condition.opcode, settled]
  · have outside := Nat.not_lt.mp inside
    simp [machine.registers.get_of_le _ outside, outside, execute, settled]

theorem run_operate (opcode : Opcode) (machine : Machine) :
    (operate opcode).run machine =
      settled machine ((Instruction.complete machine.memory machine.pc opcode).bind machine.execute) := by
  cases opcode with
  | ldi => exact run_load_immediate machine
  | cmp => exact run_compare machine
  | jmp => exact run_jump machine
  | jeq => exact run_jump_if_equal machine
  | jne => exact run_jump_if_clear machine

theorem run_step (machine : Machine) : step.run machine = settled machine machine.successor := by
  rw [successor, Instruction.decode_cells]
  cases fetched : machine.memory.read machine.pc with
  | error fault => simp [step, fetched, settled, Except.bind, Except.map]
  | ok byte =>
      have decoded (next : Byte → Except Fault Instruction) : (Except.ok byte).bind next = next byte := rfl
      cases coded : Opcode.ofByte? byte with
      | none => simp [step, fetched, coded, settled, Except.bind, Except.map]
      | some opcode =>
          simp only [step, fetched, coded, decoded, EStateM.run_bind, EStateM.run_get, run_lift_ok,
            run_operate]
          cases (Instruction.complete machine.memory machine.pc opcode).bind machine.execute <;> rfl

theorem step_ok_iff (machine next : Machine) :
    step.run machine = .ok () next ↔ machine.successor = .ok next := by
  rw [run_step, settled_eq_ok_iff]

theorem step_error_iff (machine after : Machine) (fault : Fault) :
    step.run machine = .error fault after ↔ machine.successor = .error fault ∧ after = machine := by
  rw [run_step, settled_eq_error_iff]

end Machine

end StoredProgram
