import StoredProgram.Proofs.Interpretation

set_option autoImplicit false

namespace StoredProgram

namespace Instruction

def jumps (flag : Flag) : Instruction → Bool
  | .load .. => false
  | .compare => false
  | .jump condition _ => condition.holds flag

theorem decode_load (memory : Memory) (address : Nat) (register value : Byte)
    (decoded : decode memory.cells address = .ok (.load register value)) :
    memory.read address = .ok Opcode.ldi.code ∧ memory.read (address + 1) = .ok register ∧
      memory.read (address + 2) = .ok value := by
  simp only [Memory.read_eq_ok_iff]
  exact (decode_eq_ok_iff memory.cells address _).mp decoded

end Instruction

namespace Machine

theorem successor_eq_ok_iff (machine next : Machine) :
    machine.successor = .ok next ↔
      ∃ instruction acted, Instruction.decode machine.memory.cells machine.pc = .ok instruction ∧
        machine.execute instruction = .ok acted ∧ next = acted.counted := by
  rw [successor, Attempt.map_eq_ok_iff]
  constructor
  · rintro ⟨acted, interpreted, rfl⟩
    obtain ⟨instruction, decoded, executed⟩ := (Attempt.bind_eq_ok_iff _ _ _).mp interpreted
    exact ⟨instruction, acted, decoded, executed, rfl⟩
  · rintro ⟨instruction, acted, decoded, executed, rfl⟩
    exact ⟨acted, (Attempt.bind_eq_ok_iff _ _ _).mpr ⟨instruction, decoded, executed⟩, rfl⟩

theorem successor_eq_error_iff (machine : Machine) (fault : Fault) :
    machine.successor = .error fault ↔
      Instruction.decode machine.memory.cells machine.pc = .error fault ∨
        ∃ instruction, Instruction.decode machine.memory.cells machine.pc = .ok instruction ∧
          machine.execute instruction = .error fault := by
  unfold successor
  cases Instruction.decode machine.memory.cells machine.pc with
  | error fault => simp [Except.bind, Except.map]
  | ok instruction => cases acted : machine.execute instruction <;> simp [acted, Except.bind, Except.map]

-- All that an instruction can do. A jump that asks for an equal flag and is not taken is the only one
-- whose register may be missing.
theorem execute_cases (machine acted : Machine) (instruction : Instruction)
    (done : machine.execute instruction = .ok acted) :
    (∃ register value, instruction = .load register value ∧ register.toNat < Registers.count ∧
      acted = { machine with
        registers := machine.registers.replace register.toNat value
        pc := machine.pc + instruction.size }) ∨
    (instruction = .compare ∧
      acted = { machine with
        flag := Alu.compare (machine.registers.content 0) (machine.registers.content 1)
        pc := machine.pc + instruction.size }) ∨
    (∃ condition register, instruction = .jump condition register ∧ condition.holds machine.flag ∧
      register < Registers.count ∧
      acted = { machine with
        pc := (machine.registers.content register).toNat + instruction.size }) ∨
    (∃ condition register, instruction = .jump condition register ∧ ¬ condition.holds machine.flag ∧
      (condition ≠ .ifEqual → register < Registers.count) ∧
      acted = { machine with pc := machine.pc + instruction.size }) := by
  cases instruction with
  | load register value =>
      rw [execute] at done
      split at done
      · rename_i inside
        cases done
        exact .inl ⟨register, value, rfl, inside, rfl⟩
      · cases done
  | compare =>
      cases done
      exact .inr (.inl ⟨rfl, rfl⟩)
  | jump condition register =>
      rw [execute] at done
      split at done
      · cases done
      · rename_i readable
        cases done
        by_cases taken : condition.holds machine.flag
        · have inside := Nat.lt_of_not_le fun outside => readable ⟨.inr taken, outside⟩
          rw [if_pos taken]
          exact .inr (.inr (.inl ⟨condition, register, rfl, taken, inside, rfl⟩))
        · rw [if_neg taken]
          refine .inr (.inr (.inr ⟨condition, register, rfl, taken, ?_, rfl⟩))
          exact fun reads => Nat.lt_of_not_le fun outside => readable ⟨.inl reads, outside⟩

theorem execute_frame (machine acted : Machine) (instruction : Instruction)
    (done : machine.execute instruction = .ok acted) :
    acted.memory = machine.memory ∧ acted.steps = machine.steps := by
  rcases execute_cases machine acted instruction done with
    ⟨_, _, _, _, rfl⟩ | ⟨_, rfl⟩ | ⟨_, _, _, _, _, rfl⟩ | ⟨_, _, _, _, _, rfl⟩
  all_goals exact ⟨rfl, rfl⟩

theorem execute_pc (machine acted : Machine) (instruction : Instruction)
    (done : machine.execute instruction = .ok acted) :
    (instruction.jumps machine.flag = false ∧ acted.pc = machine.pc + instruction.size) ∨
      ∃ condition register, instruction = .jump condition register ∧ condition.holds machine.flag ∧
        register < Registers.count ∧
        acted.pc = (machine.registers.content register).toNat + instruction.size := by
  rcases execute_cases machine acted instruction done with
    ⟨_, _, rfl, _, rfl⟩ | ⟨rfl, rfl⟩ | ⟨condition, register, rfl, taken, inside, rfl⟩ |
      ⟨_, _, rfl, untaken, _, rfl⟩
  · exact .inl ⟨rfl, rfl⟩
  · exact .inl ⟨rfl, rfl⟩
  · exact .inr ⟨condition, register, rfl, taken, inside, rfl⟩
  · exact .inl ⟨Bool.eq_false_iff.mpr untaken, rfl⟩

theorem execute_registers (machine acted : Machine) (instruction : Instruction)
    (done : machine.execute instruction = .ok acted) :
    acted.registers = machine.registers ∨
      ∃ register value, instruction = .load register value ∧ register.toNat < Registers.count ∧
        acted.registers = machine.registers.replace register.toNat value := by
  rcases execute_cases machine acted instruction done with
    ⟨register, value, rfl, inside, rfl⟩ | ⟨_, rfl⟩ | ⟨_, _, _, _, _, rfl⟩ | ⟨_, _, _, _, _, rfl⟩
  · exact .inr ⟨register, value, rfl, inside, rfl⟩
  all_goals exact .inl rfl

theorem successor_frame (machine next : Machine) (done : machine.successor = .ok next) :
    next.memory = machine.memory ∧ next.steps = machine.steps + 1 := by
  obtain ⟨instruction, acted, -, executed, rfl⟩ := (successor_eq_ok_iff machine next).mp done
  obtain ⟨memory, steps⟩ := execute_frame machine acted instruction executed
  exact ⟨memory, congrArg (· + 1) steps⟩

def jumps (machine : Machine) : Bool :=
  match Instruction.decode machine.memory.cells machine.pc with
  | .ok instruction => instruction.jumps machine.flag
  | .error _ => false

theorem jumps_of_decoded (machine : Machine) (instruction : Instruction)
    (decoded : Instruction.decode machine.memory.cells machine.pc = .ok instruction) :
    machine.jumps = instruction.jumps machine.flag := by
  rw [jumps, decoded]

-- A jump that is taken reads the register that is numbered one above its address, and skips its own cells
-- once it has landed.
theorem successor_moves (machine next : Machine) (done : machine.successor = .ok next) :
    ∃ instruction, Instruction.decode machine.memory.cells machine.pc = .ok instruction ∧
      ((machine.jumps = false ∧ next.pc = machine.pc + instruction.size) ∨
        (machine.jumps = true ∧ machine.pc + 1 < Registers.count ∧
          next.pc = (machine.registers.content (machine.pc + 1)).toNat + 2)) := by
  obtain ⟨instruction, acted, decoded, executed, rfl⟩ := (successor_eq_ok_iff machine next).mp done
  refine ⟨instruction, decoded, ?_⟩
  rw [jumps_of_decoded machine instruction decoded]
  rcases execute_pc machine acted instruction executed with
    straight | ⟨condition, register, rfl, taken, inside, landed⟩
  · exact .inl straight
  · obtain rfl := Instruction.decode_jump _ _ _ _ decoded
    have size : (Instruction.jump condition (machine.pc + 1)).size = 2 := condition.opcode_size
    rw [size] at landed
    exact .inr ⟨taken, inside, landed⟩

theorem successor_pc (machine next : Machine) (done : machine.successor = .ok next) :
    machine.pc < Memory.capacity ∧ 2 ≤ next.pc := by
  obtain ⟨instruction, decoded, moved⟩ := successor_moves machine next done
  have inside := Instruction.decode_inside _ _ _ decoded
  rw [machine.memory.length_cells] at inside
  have size := instruction.size_bounds
  refine ⟨inside, ?_⟩
  rcases moved with ⟨-, pc⟩ | ⟨-, -, pc⟩ <;> omega

theorem successor_pc_le (machine next : Machine) (done : machine.successor = .ok next) : next.pc ≤ 257 := by
  obtain ⟨instruction, -, moved⟩ := successor_moves machine next done
  have inside := (successor_pc machine next done).1
  have capacity : Memory.capacity = 100 := rfl
  have size := instruction.size_bounds
  have byte := (machine.registers.content (machine.pc + 1)).toNat_lt
  rcases moved with ⟨-, pc⟩ | ⟨-, -, pc⟩ <;> omega

-- The register of a jump is numbered one above its address, so that no jump is taken from above 6.
theorem successor_climbs (machine next : Machine) (done : machine.successor = .ok next)
    (above : Registers.count ≤ machine.pc + 1) :
    machine.jumps = false ∧ (next.pc = machine.pc + 2 ∨ next.pc = machine.pc + 3) := by
  obtain ⟨instruction, -, moved⟩ := successor_moves machine next done
  have size := instruction.size_bounds
  rcases moved with ⟨straight, pc⟩ | ⟨-, inside, -⟩
  · exact ⟨straight, by omega⟩
  · omega

theorem successor_flag (machine next : Machine) (done : machine.successor = .ok next)
    (recorded : machine.flag ≠ .greater) : next.flag ≠ .greater := by
  obtain ⟨instruction, acted, -, executed, rfl⟩ := (successor_eq_ok_iff machine next).mp done
  change acted.flag ≠ .greater
  rcases execute_cases machine acted instruction executed with
    ⟨_, _, _, _, rfl⟩ | ⟨_, rfl⟩ | ⟨_, _, _, _, _, rfl⟩ | ⟨_, _, _, _, _, rfl⟩
  · exact recorded
  · exact Alu.compare_ne_greater _ _
  all_goals exact recorded

theorem execute_aside (machine : Machine) (instruction : Instruction) (memory : Memory) (steps : Nat) :
    ({ machine with memory, steps } : Machine).execute instruction =
      (machine.execute instruction).map fun acted => { acted with memory, steps } := by
  cases instruction with
  | load register value =>
      simp only [execute]
      split <;> rfl
  | compare => rfl
  | jump condition register =>
      simp only [execute]
      split <;> rfl

theorem successor_aside (machine : Machine) (memory : Memory) (steps : Nat)
    (same : Instruction.decode memory.cells machine.pc = Instruction.decode machine.memory.cells machine.pc) :
    ({ machine with memory, steps } : Machine).successor =
      machine.successor.map fun next => { next with memory, steps := steps + 1 } := by
  unfold successor
  dsimp only
  rw [same]
  cases Instruction.decode machine.memory.cells machine.pc with
  | error fault => rfl
  | ok instruction =>
      change ((({ machine with memory, steps } : Machine).execute instruction).map counted) =
        ((machine.execute instruction).map counted).map _
      rw [execute_aside]
      cases machine.execute instruction <;> rfl

theorem successor_recount (machine : Machine) (steps : Nat) :
    ({ machine with steps } : Machine).successor =
      machine.successor.map fun next => { next with steps := steps + 1 } := by
  rw [successor_aside machine machine.memory steps rfl]
  cases done : machine.successor with
  | error fault => rfl
  | ok next =>
      rw [← (successor_frame machine next done).1]
      rfl

end Machine

end StoredProgram
