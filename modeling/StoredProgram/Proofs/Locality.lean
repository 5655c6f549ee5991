import StoredProgram.Proofs.Runners

set_option autoImplicit false

namespace StoredProgram

def Memory.replace (memory : Memory) (index : Nat) (value : Byte) : Memory where
  cells := memory.cells.set index value
  length_cells := by rw [List.length_set, memory.length_cells]

namespace Machine

def fetched (machine : Machine) : List Nat :=
  (if machine.memory.cells[machine.pc]? = some Opcode.ldi.code then
    [machine.pc, machine.pc + 1, machine.pc + 2]
  else [machine.pc]).filter (· < Memory.capacity)

def afterAttempts (machine : Machine) : Nat → Machine
  | 0 => machine
  | count + 1 => (Report.ofStep (machine.afterAttempts count)).machine

structure Alike (first second : Machine) : Prop where
  pc : first.pc = second.pc
  flag : first.flag = second.flag
  registers : first.registers = second.registers
  steps : first.steps = second.steps

def SameAttempts (count : Nat) (first second : Machine) : Prop :=
  ∀ index, index < count →
    (Report.ofStep (first.afterAttempts index)).failure = (Report.ofStep (second.afterAttempts index)).failure ∧
      Alike (first.afterAttempts (index + 1)) (second.afterAttempts (index + 1))

theorem after_attempts_memory (machine : Machine) (count : Nat) :
    (machine.afterAttempts count).memory = machine.memory := by
  induction count with
  | zero => rfl
  | succ count ih =>
      rw [afterAttempts, report_of_step]
      cases done : (machine.afterAttempts count).successor with
      | error fault => exact ih
      | ok next => exact (successor_frame _ next done).1.trans ih

theorem cells_of_fetched (machine : Machine) (memory : Memory) (cell : Nat)
    (agree : ∀ cell ∈ machine.fetched, machine.memory.cells[cell]? = memory.cells[cell]?)
    (needed : cell = machine.pc ∨
      machine.memory.cells[machine.pc]? = some Opcode.ldi.code ∧
        (cell = machine.pc + 1 ∨ cell = machine.pc + 2)) :
    machine.memory.read cell = memory.read cell := by
  have same : machine.memory.cells[cell]? = memory.cells[cell]? := by
    by_cases inside : cell < Memory.capacity
    · apply agree
      refine List.mem_filter.mpr ⟨?_, decide_eq_true inside⟩
      rcases needed with rfl | ⟨load, operand⟩
      · split <;> simp
      · rw [if_pos load]
        rcases operand with rfl | rfl <;> simp
    · have outside := Nat.le_of_not_lt inside
      rw [List.getElem?_eq_none (machine.memory.length_cells ▸ outside),
        List.getElem?_eq_none (memory.length_cells ▸ outside)]
  rw [Memory.read, Memory.read, same]

theorem decode_of_fetched (machine : Machine) (memory : Memory)
    (agree : ∀ cell ∈ machine.fetched, machine.memory.cells[cell]? = memory.cells[cell]?) :
    Instruction.decode memory.cells machine.pc = Instruction.decode machine.memory.cells machine.pc := by
  rw [Instruction.decode_cells, Instruction.decode_cells,
    ← cells_of_fetched machine memory machine.pc agree (.inl rfl)]
  cases held : machine.memory.read machine.pc with
  | error fault => rfl
  | ok byte =>
      dsimp only [Except.bind]
      cases coded : Opcode.ofByte? byte with
      | none => rfl
      | some opcode =>
          cases opcode with
          | ldi =>
              obtain rfl := Opcode.of_byte_eq_some_iff.mp coded
              have load := (Memory.read_eq_ok_iff _ _ _).mp held
              have first := cells_of_fetched machine memory _ agree (.inr ⟨load, .inl rfl⟩)
              have second := cells_of_fetched machine memory _ agree (.inr ⟨load, .inr rfl⟩)
              dsimp only [Instruction.complete]
              rw [first, second]
          | cmp | jmp | jeq | jne => rfl

theorem attempt_alike (first second : Machine) (alike : Alike first second)
    (agree : ∀ cell ∈ first.fetched, first.memory.cells[cell]? = second.memory.cells[cell]?) :
    (Report.ofStep first).failure = (Report.ofStep second).failure ∧
      Alike (Report.ofStep first).machine (Report.ofStep second).machine := by
  have moved : second = { first with memory := second.memory } := by
    cases first
    cases second
    cases alike
    simp_all
  have onward := successor_aside first second.memory first.steps (decode_of_fetched first second.memory agree)
  rw [← moved] at onward
  rw [report_of_step, report_of_step, onward]
  cases done : first.successor with
  | error fault => exact ⟨rfl, alike⟩
  | ok next => exact ⟨rfl, rfl, rfl, rfl, (successor_frame first next done).2⟩

theorem after_attempts_alike (count : Nat) (first second : Machine) (alike : Alike first second)
    (agree : ∀ index < count, ∀ cell ∈ (first.afterAttempts index).fetched,
      first.memory.cells[cell]? = second.memory.cells[cell]?) :
    Alike (first.afterAttempts count) (second.afterAttempts count) := by
  -- The memories are those of the start throughout, so that an attempt is alike wherever the ones before it are.
  induction count with
  | zero => exact alike
  | succ count ih =>
      have before := ih fun index within => agree index (Nat.lt_succ_of_lt within)
      have shared := agree count (Nat.lt_succ_self count)
      rw [← after_attempts_memory first count, ← after_attempts_memory second count] at shared
      exact (attempt_alike _ _ before shared).2

theorem same_attempts_of_fetched (count : Nat) (first second : Machine) (alike : Alike first second)
    (agree : ∀ index < count, ∀ cell ∈ (first.afterAttempts index).fetched,
      first.memory.cells[cell]? = second.memory.cells[cell]?) :
    SameAttempts count first second := by
  intro index within
  have before := after_attempts_alike index first second alike fun earlier less =>
    agree earlier (Nat.lt_trans less within)
  have shared := agree index within
  rw [← after_attempts_memory first index, ← after_attempts_memory second index] at shared
  exact attempt_alike _ _ before shared

theorem fetched_of_unread_operands (machine : Machine) (instruction : Instruction)
    (decoded : Instruction.decode machine.memory.cells machine.pc = .ok instruction)
    (unread : instruction.opcode ≠ .ldi) : machine.fetched = [machine.pc] := by
  have inside := Instruction.decode_inside _ _ _ decoded
  rw [machine.memory.length_cells] at inside
  have held := Instruction.decode_opcode _ _ _ decoded
  have other : instruction.opcode.code ≠ Opcode.ldi.code := fun same => unread (Opcode.code_inj.mp same)
  rw [fetched, if_neg fun load => other (Option.some.inj (held.symm.trans load))]
  exact List.filter_eq_self.mpr fun cell member => List.mem_singleton.mp member ▸ decide_eq_true inside

theorem run_depends_on_fetched_cells (count : Nat) (first : Machine) :
    (∀ second, Alike first second →
      (∀ index < count, ∀ cell ∈ (first.afterAttempts index).fetched,
        first.memory.cells[cell]? = second.memory.cells[cell]?) →
      SameAttempts count first second) ∧
    ∀ index instruction distance value, index < count →
      Instruction.decode first.memory.cells (first.afterAttempts index).pc = .ok instruction →
      instruction.opcode ≠ .ldi → 0 < distance → distance < instruction.size →
      (∀ other < count, (first.afterAttempts other).pc ≠ (first.afterAttempts index).pc →
        (first.afterAttempts index).pc + distance ∉ (first.afterAttempts other).fetched) →
      SameAttempts count first
        { first with memory := first.memory.replace ((first.afterAttempts index).pc + distance) value } := by
  refine ⟨fun second alike agree => same_attempts_of_fetched count first second alike agree, ?_⟩
  intro index instruction distance value _ decoded unread positive _ unshared
  refine same_attempts_of_fetched count first _ ⟨rfl, rfl, rfl, rfl⟩ ?_
  intro other less cell member
  have elsewhere : (first.afterAttempts index).pc + distance ≠ cell := by
    rintro rfl
    by_cases same : (first.afterAttempts other).pc = (first.afterAttempts index).pc
    · have again : Instruction.decode (first.afterAttempts other).memory.cells (first.afterAttempts other).pc =
          .ok instruction := by rw [after_attempts_memory, same, decoded]
      rw [fetched_of_unread_operands _ instruction again unread, same] at member
      have opcode := List.mem_singleton.mp member
      omega
    · exact unshared other less same member
  exact (List.getElem?_set_ne elsewhere).symm

theorem operand_of_jump_is_free :
    ∃ first second, withProgram [0b10000010, 4, 1, 0b01010100, 0] = .ok first ∧
      withProgram [0b10000010, 4, 1, 0b01010100, 0b10000010] = .ok second ∧
      SameAttempts 5 first second ∧
      SameAttempts 5 first { first with memory := first.memory.replace 4 0xff } ∧
      (first.afterAttempts 5).steps = 5 := by
  refine ⟨_, _, rfl, rfl, ?_, ?_, rfl⟩
  · exact (run_depends_on_fetched_cells 5 _).1 _ ⟨rfl, rfl, rfl, rfl⟩ (by decide)
  · exact (run_depends_on_fetched_cells 5 _).2 1 (.jump .always 4) 1 0xff (by decide) rfl (by decide)
      (by decide) (by decide) (by decide)

end Machine

end StoredProgram
