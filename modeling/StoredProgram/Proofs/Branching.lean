import StoredProgram.Proofs.Provenance

set_option autoImplicit false

namespace StoredProgram

namespace Alu

theorem compare_of_less (left right : Byte) (less : left < right) : compare left right = .less := by
  have different : left ≠ right := UInt8.ne_of_lt less
  rw [compare, if_neg different, if_pos less]

theorem compare_of_equal (left right : Byte) (same : left = right) : compare left right = .equal :=
  if_pos same

theorem compare_of_greater (left right : Byte) (greater : right < left) : compare left right = .clear := by
  have different : left ≠ right := (UInt8.ne_of_lt greater).symm
  rw [compare, if_neg different, if_neg (UInt8.lt_asymm greater)]

theorem compare_cases (left right : Byte) :
    (left < right ∧ compare left right = .less) ∨ (left = right ∧ compare left right = .equal) ∨
      (right < left ∧ compare left right = .clear) := by
  by_cases less : left < right
  · exact .inl ⟨less, compare_of_less left right less⟩
  · by_cases greater : right < left
    · exact .inr (.inr ⟨greater, compare_of_greater left right greater⟩)
    · have same : left = right := UInt8.le_antisymm (UInt8.not_lt.mp greater) (UInt8.not_lt.mp less)
      exact .inr (.inl ⟨same, compare_of_equal left right same⟩)

theorem compare_equal_iff (left right : Byte) : compare left right = .equal ↔ left = right := by
  rcases compare_cases left right with ⟨less, found⟩ | ⟨same, found⟩ | ⟨greater, found⟩
  · simp [found, UInt8.ne_of_lt less]
  · subst right
    simp [found]
  · simp [found, (UInt8.ne_of_lt greater).symm]

theorem compare_clear_iff (left right : Byte) : compare left right = .clear ↔ right < left := by
  rcases compare_cases left right with ⟨less, found⟩ | ⟨same, found⟩ | ⟨greater, found⟩
  · simp [found, UInt8.le_of_lt less]
  · subst right
    simp [found]
  · simp [found, greater]

end Alu

namespace Condition

theorem holds_equal_iff (condition : Condition) (conditional : condition ≠ .always) :
    condition.holds .equal ↔ condition = .ifEqual := by
  cases condition with
  | always => exact absurd rfl conditional
  | ifEqual | ifClear => decide

theorem holds_clear_iff (condition : Condition) (conditional : condition ≠ .always) :
    condition.holds .clear ↔ condition = .ifClear := by
  cases condition with
  | always => exact absurd rfl conditional
  | ifEqual | ifClear => decide

theorem not_holds_less (condition : Condition) (conditional : condition ≠ .always) :
    ¬ condition.holds .less := by
  cases condition with
  | always => exact absurd rfl conditional
  | ifEqual | ifClear => decide

theorem holds_of_compared (condition : Condition) (conditional : condition ≠ .always) (left right : Byte) :
    (left < right → ¬ condition.holds (Alu.compare left right)) ∧
    (left = right → (condition.holds (Alu.compare left right) ↔ condition = .ifEqual)) ∧
    (right < left → (condition.holds (Alu.compare left right) ↔ condition = .ifClear)) := by
  refine ⟨?_, ?_, ?_⟩
  · intro less
    rw [Alu.compare_of_less left right less]
    exact condition.not_holds_less conditional
  · intro same
    rw [Alu.compare_of_equal left right same]
    exact condition.holds_equal_iff conditional
  · intro greater
    rw [Alu.compare_of_greater left right greater]
    exact condition.holds_clear_iff conditional

end Condition

namespace Machine

def compared? (machine : Machine) : Option (Byte × Byte) :=
  match Instruction.decode machine.memory.cells machine.pc with
  | .ok .compare => some (machine.registers.content 0, machine.registers.content 1)
  | _ => none

theorem successor_flag_compared (machine next : Machine) (done : machine.successor = .ok next) :
    next.flag = (machine.compared?.map fun operands => Alu.compare operands.1 operands.2).getD machine.flag := by
  obtain ⟨instruction, acted, decoded, executed, rfl⟩ := (successor_eq_ok_iff machine next).mp done
  rw [compared?, decoded]
  change acted.flag = _
  rcases execute_cases machine acted instruction executed with
    ⟨_, _, rfl, _, rfl⟩ | ⟨rfl, rfl⟩ | ⟨_, _, rfl, _, _, rfl⟩ | ⟨_, _, rfl, _, _, rfl⟩
  all_goals rfl

theorem jumps_iff_holds (machine : Machine) (condition : Condition) (register : Nat)
    (decoded : Instruction.decode machine.memory.cells machine.pc = .ok (.jump condition register)) :
    machine.jumps ↔ condition.holds machine.flag := by
  rw [jumps_of_decoded machine _ decoded]
  rfl

theorem successor_of_jump (machine next : Machine) (condition : Condition) (register : Nat)
    (decoded : Instruction.decode machine.memory.cells machine.pc = .ok (.jump condition register))
    (done : machine.successor = .ok next) :
    next = { machine with
      pc := (if machine.jumps then (machine.registers.content (machine.pc + 1)).toNat else machine.pc) + 2
      steps := machine.steps + 1 } := by
  obtain ⟨instruction, acted, same, executed, rfl⟩ := (successor_eq_ok_iff machine next).mp done
  obtain rfl := Except.ok.inj (decoded.symm.trans same)
  obtain rfl := Instruction.decode_jump _ _ _ _ decoded
  have size := condition.opcode_size
  rw [execute] at executed
  split at executed
  · cases executed
  · cases executed
    simp only [counted, jumps_iff_holds machine condition _ decoded, size]

theorem completes_flag (count : Nat) (first final : Machine) (reached : step.Completes count first final) :
    final.flag = ((first.latest compared? count).map fun operands => Alu.compare operands.1 operands.2).getD
      first.flag :=
  completes_shows_latest compared? _ flag successor_flag_compared count first final reached

theorem equal_flag_iff (count : Nat) (first final : Machine) (reached : step.Completes count first final)
    (unset : first.flag = .equal) :
    final.flag = .equal ↔
      first.latest compared? count = none ∨ ∃ value, first.latest compared? count = some (value, value) := by
  rw [completes_flag count first final reached, unset]
  cases first.latest compared? count with
  | none => simp
  | some operands =>
      obtain ⟨left, right⟩ := operands
      simpa [@eq_comm _ right] using Alu.compare_equal_iff left right

theorem clear_flag_iff (count : Nat) (first final : Machine) (reached : step.Completes count first final)
    (unset : first.flag = .equal) :
    final.flag = .clear ↔
      ∃ left right, first.latest compared? count = some (left, right) ∧ right < left := by
  rw [completes_flag count first final reached, unset]
  cases first.latest compared? count with
  | none => simp
  | some operands =>
      obtain ⟨left, right⟩ := operands
      constructor
      · intro clear
        exact ⟨left, right, rfl, (Alu.compare_clear_iff left right).mp clear⟩
      · rintro ⟨_, _, ⟨rfl⟩, greater⟩
        exact (Alu.compare_clear_iff left right).mpr greater

theorem conditional_jumps_follow_latest_comparison (image : List Byte) (fits : image.length ≤ Memory.capacity) :
    ∃ first, withProgram image = .ok first ∧ ∀ count final next condition register,
      step.Completes count first final →
      Instruction.decode final.memory.cells final.pc = .ok (.jump condition register) →
      condition ≠ .always → step.run final = .ok () next →
      next = { final with
        pc := (if final.jumps then (final.registers.content (final.pc + 1)).toNat else final.pc) + 2
        steps := final.steps + 1 } ∧
      (condition = .ifEqual → (final.jumps ↔
        first.latest compared? count = none ∨ ∃ value, first.latest compared? count = some (value, value))) ∧
      (condition = .ifClear → (final.jumps ↔
        ∃ left right, first.latest compared? count = some (left, right) ∧ right < left)) ∧
      (first.latest compared? count = none → (final.jumps ↔ condition = .ifEqual)) ∧
      ∀ left right, first.latest compared? count = some (left, right) →
        (left < right → ¬ final.jumps) ∧
        (left = right → (final.jumps ↔ condition = .ifEqual)) ∧
        (right < left → (final.jumps ↔ condition = .ifClear)) := by
  refine ⟨_, with_program_of_fits image fits, ?_⟩
  intro count final next condition register reached decoded conditional done
  have flag := completes_flag count _ final reached
  have taken := jumps_iff_holds final condition register decoded
  refine ⟨successor_of_jump final next condition register decoded ((step_ok_iff final next).mp done), ?_⟩
  refine ⟨?_, ?_, ?_, ?_⟩
  · rintro rfl
    have holds : Condition.ifEqual.holds final.flag ↔ final.flag = .equal := decide_eq_true_iff
    exact taken.trans (holds.trans (equal_flag_iff count _ final reached rfl))
  · rintro rfl
    have holds : Condition.ifClear.holds final.flag ↔ final.flag = .clear := decide_eq_true_iff
    exact taken.trans (holds.trans (clear_flag_iff count _ final reached rfl))
  · intro uncompared
    rw [uncompared] at flag
    rw [flag] at taken
    exact taken.trans (condition.holds_equal_iff conditional)
  · intro left right compared
    rw [compared] at flag
    rw [flag] at taken
    have table := condition.holds_of_compared conditional left right
    exact ⟨fun less => mt taken.mp (table.1 less), fun same => taken.trans (table.2.1 same),
      fun greater => taken.trans (table.2.2 greater)⟩

-- The operands of the comparison are 5 and 0. The load after it makes the registers equal, which the jump at
-- address 9 does not see.
theorem reloading_leaves_the_jump_untaken :
    ∃ first final next,
      withProgram [0b10000010, 0, 5, 0b10100111, 0, 0, 0b10000010, 1, 5, 0b01010101] = .ok first ∧
      step.Completes 3 first final ∧
      Instruction.decode final.memory.cells final.pc = .ok (.jump .ifEqual 10) ∧
      step.run final = .ok () next ∧ first.latest compared? 3 = some (5, 0) ∧
      final.registers.content 0 = final.registers.content 1 ∧ ¬ final.jumps ∧ next.pc = 11 := by
  obtain ⟨first, loaded, follows⟩ := conditional_jumps_follow_latest_comparison
    [0b10000010, 0, 5, 0b10100111, 0, 0, 0b10000010, 1, 5, 0b01010101] (by decide)
  obtain ⟨final, next, reached, decoded, done, place, compared, same⟩ :
      ∃ final next, step.Completes 3 first final ∧
        Instruction.decode final.memory.cells final.pc = .ok (.jump .ifEqual 10) ∧
        step.run final = .ok () next ∧ final.pc = 9 ∧ first.latest compared? 3 = some (5, 0) ∧
        final.registers.content 0 = final.registers.content 1 := by
    obtain rfl := Except.ok.inj loaded
    exact ⟨_, _, .more rfl (.more rfl (.more rfl (.none _))), rfl, rfl, rfl, rfl, rfl⟩
  obtain ⟨moved, -, -, -, table⟩ := follows 3 final next .ifEqual 10 reached decoded nofun done
  have untaken : ¬ final.jumps := fun taken => absurd (((table 5 0 compared).2.2 (by decide)).mp taken) nofun
  refine ⟨first, final, next, loaded, reached, decoded, done, compared, same, untaken, ?_⟩
  rw [moved, if_neg untaken, place]

end Machine

end StoredProgram
