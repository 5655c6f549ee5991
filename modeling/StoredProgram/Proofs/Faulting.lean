import StoredProgram.Proofs.Transition

set_option autoImplicit false

namespace StoredProgram

namespace Machine

theorem execute_eq_error_iff (machine : Machine) (instruction : Instruction) (fault : Fault) :
    machine.execute instruction = .error fault ↔
      (∃ register value, instruction = .load register value ∧ Registers.count ≤ register.toNat ∧
        fault = .outOfBounds (.register register.toNat)) ∨
      (∃ condition register, instruction = .jump condition register ∧
        (condition ≠ .ifEqual ∨ condition.holds machine.flag) ∧ Registers.count ≤ register ∧
        fault = .outOfBounds (.register register)) := by
  cases instruction with
  | load register value =>
      by_cases inside : register.toNat < Registers.count
      · rw [execute, if_pos inside]
        simp [Nat.not_le.mpr inside]
      · rw [execute, if_neg inside]
        simp [Nat.not_lt.mp inside, @eq_comm _ fault]
  | compare => simp [execute]
  | jump condition register =>
      rw [execute]
      constructor
      · intro refused
        split at refused
        · rename_i missing
          cases refused
          exact .inr ⟨condition, register, rfl, missing.1, missing.2, rfl⟩
        · cases refused
      · rintro (⟨_, _, impossible, _⟩ | ⟨_, _, same, reads, outside, rfl⟩)
        · cases impossible
        · cases same
          rw [if_pos ⟨reads, outside⟩]

theorem successor_fault_cases (machine : Machine) (fault : Fault) (faulted : machine.successor = .error fault) :
    (∃ byte, machine.memory.cells[machine.pc]? = some byte ∧ Opcode.ofByte? byte = none ∧
      fault = .unknownOpcode byte (.memory machine.pc)) ∨
    (Memory.capacity ≤ machine.pc ∧ fault = .outOfBounds (.memory machine.pc)) ∨
    (machine.memory.cells[machine.pc]? = some Opcode.ldi.code ∧ machine.pc < Memory.capacity ∧
      Memory.capacity ≤ machine.pc + 2 ∧ fault = .outOfBounds (.memory Memory.capacity)) ∨
    ∃ register, Registers.count ≤ register ∧ register ≤ 255 ∧
      fault = .outOfBounds (.register register) := by
  have length := machine.memory.length_cells
  rcases (successor_eq_error_iff machine fault).mp faulted with undecoded | ⟨instruction, decoded, refused⟩
  · rcases (Instruction.decode_eq_error_iff _ _ _).mp undecoded with
      ⟨outside, report⟩ | unknown | ⟨held, short, report⟩
    · exact .inr (.inl ⟨length ▸ outside, report⟩)
    · exact .inl unknown
    · rw [length] at short report
      have inside := (List.getElem?_eq_some_iff.mp held).1
      exact .inr (.inr (.inl ⟨held, length ▸ inside, short, report⟩))
  · have capacity : Memory.capacity = 100 := rfl
    rcases (execute_eq_error_iff machine instruction fault).mp refused with
      ⟨register, value, rfl, outside, report⟩ | ⟨condition, register, rfl, -, outside, report⟩
    · have byte := register.toNat_lt
      exact .inr (.inr (.inr ⟨register.toNat, outside, by omega, report⟩))
    · have number := Instruction.decode_jump _ _ _ _ decoded
      have inside := Instruction.decode_inside _ _ _ decoded
      exact .inr (.inr (.inr ⟨register, outside, by omega, report⟩))

theorem successor_ne_step_limit (machine : Machine) (limit : Nat) :
    machine.successor ≠ .error (.stepLimitReached limit) := by
  intro faulted
  rcases successor_fault_cases machine _ faulted with
    ⟨_, _, _, report⟩ | ⟨_, report⟩ | ⟨_, _, _, report⟩ | ⟨_, _, _, report⟩
  all_goals cases report

end Machine

end StoredProgram
