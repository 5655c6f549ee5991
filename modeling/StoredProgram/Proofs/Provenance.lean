import StoredProgram.Proofs.Completion
import StoredProgram.Proofs.Loading

set_option autoImplicit false

namespace StoredProgram

def Memory.Offers (memory : Memory) (register : Nat) (value : Byte) : Prop :=
  ∃ address target, address ≤ 97 ∧ memory.read address = .ok Opcode.ldi.code ∧
    memory.read (address + 1) = .ok target ∧ target.toNat = register ∧ memory.read (address + 2) = .ok value

theorem Registers.content_replace (registers : Registers) (index other : Nat) (value : Byte)
    (inside : index < count) :
    (registers.replace index value).content other = if index = other then value else registers.content other := by
  have bound : index < registers.cells.length := registers.length_cells ▸ inside
  by_cases same : index = other
  · subst other
    simp [content, replace, bound]
  · simp [content, replace, same]

namespace Machine

section Latest

variable {Value View : Type} (kind : Machine → Option Value)

def latest (count : Nat) (machine : Machine) : Option Value :=
  (machine.attempts count).reverse.findSome? kind

theorem latest_succ (count : Nat) (machine next : Machine) (done : step.run machine = .ok () next) :
    machine.latest kind (count + 1) = (next.latest kind count).or (kind machine) := by
  simp [latest, attempts_succ, done]

theorem attempted_of_latest (count : Nat) (machine : Machine) (value : Value)
    (found : machine.latest kind count = some value) :
    ∃ attempted ∈ machine.attempts count, kind attempted = some value := by
  obtain ⟨attempted, member, has⟩ := List.exists_of_findSome?_eq_some found
  exact ⟨attempted, List.mem_reverse.mp member, has⟩

theorem completes_shows_latest (effect : Value → View) (view : Machine → View)
    (steps : ∀ machine next, machine.successor = .ok next →
      view next = ((kind machine).map effect).getD (view machine))
    (count : Nat) (machine final : Machine) (reached : step.Completes count machine final) :
    view final = ((machine.latest kind count).map effect).getD (view machine) := by
  -- The induction follows the steps from the first one on: what a later step leaves hides what was there before.
  induction reached with
  | none machine => rfl
  | @more count machine next final done rest ih =>
      rw [ih, latest_succ kind count machine next done, steps machine next ((step_ok_iff machine next).mp done)]
      cases next.latest kind count <;> rfl

end Latest

def immediate? (register : Nat) (machine : Machine) : Option Byte :=
  match Instruction.decode machine.memory.cells machine.pc with
  | .ok (.load target value) => if target.toNat = register then some value else none
  | _ => none

theorem successor_content (register : Nat) (machine next : Machine) (done : machine.successor = .ok next) :
    next.registers.content register =
      (machine.immediate? register).getD (machine.registers.content register) := by
  obtain ⟨instruction, acted, decoded, executed, rfl⟩ := (successor_eq_ok_iff machine next).mp done
  rw [immediate?, decoded]
  change acted.registers.content register = _
  rcases execute_cases machine acted instruction executed with
    ⟨target, value, rfl, inside, rfl⟩ | ⟨rfl, rfl⟩ | ⟨_, _, rfl, _, _, rfl⟩ | ⟨_, _, rfl, _, _, rfl⟩
  · rw [Registers.content_replace _ _ _ _ inside]
    by_cases same : target.toNat = register <;> simp [same]
  all_goals rfl

theorem offers_of_immediate (register : Nat) (machine : Machine) (value : Byte)
    (immediate : machine.immediate? register = some value) : machine.memory.Offers register value := by
  rw [immediate?] at immediate
  split at immediate
  · rename_i target held decoded
    by_cases same : target.toNat = register
    · rw [if_pos same] at immediate
      cases immediate
      obtain ⟨opcode, first, second⟩ := Instruction.decode_load _ _ _ _ decoded
      have inside := (List.getElem?_eq_some_iff.mp ((Memory.read_eq_ok_iff _ _ _).mp second)).1
      rw [machine.memory.length_cells] at inside
      have capacity : Memory.capacity = 100 := rfl
      exact ⟨machine.pc, target, by omega, opcode, first, same, second⟩
    · rw [if_neg same] at immediate
      cases immediate
  · cases immediate

theorem completes_content (register count : Nat) (first final : Machine) (reached : step.Completes count first final) :
    final.registers.content register =
      (first.latest (immediate? register) count).getD (first.registers.content register) := by
  have shown := completes_shows_latest (immediate? register) id (fun machine => machine.registers.content register)
    (by simpa using successor_content register) count first final reached
  simpa using shown

theorem offers_of_latest (register count : Nat) (first : Machine) (value : Byte)
    (found : first.latest (immediate? register) count = some value) : first.memory.Offers register value := by
  obtain ⟨attempted, member, immediate⟩ := attempted_of_latest (immediate? register) count first value found
  obtain ⟨index, -, before⟩ := (mem_attempts_iff count first attempted).mp member
  rw [← (completes_frame index first attempted before).1]
  exact offers_of_immediate register attempted value immediate

theorem zero_or_offers (register count : Nat) (first final : Machine) (reached : step.Completes count first final)
    (zeroed : first.registers.content register = 0) :
    final.registers.content register = 0 ∨
      first.memory.Offers register (final.registers.content register) := by
  have shown := completes_content register count first final reached
  cases found : first.latest (immediate? register) count with
  | none =>
      rw [found] at shown
      exact .inl (shown.trans zeroed)
  | some value =>
      rw [found] at shown
      rw [shown]
      exact .inr (offers_of_latest register count first value found)

theorem registers_hold_latest_loads (image : List Byte) (fits : image.length ≤ Memory.capacity) :
    ∃ first, withProgram image = .ok first ∧ ∀ count final, step.Completes count first final →
      (∀ register, register < 8 →
        final.registers.get register = .ok ((first.latest (immediate? register) count).getD 0) ∧
        (final.registers.content register = 0 ∨
          first.memory.Offers register (final.registers.content register))) ∧
      ∀ next, step.run final = .ok () next → final.jumps →
        ∃ value, (value = 0 ∨ first.memory.Offers (final.pc + 1) value) ∧ next.pc = value.toNat + 2 := by
  refine ⟨_, with_program_of_fits image fits, ?_⟩
  intro count final reached
  refine ⟨?_, ?_⟩
  · intro register inside
    refine ⟨?_, zero_or_offers register count _ final reached (fresh_content register)⟩
    rw [Registers.get_of_lt _ _ inside, completes_content register count _ final reached]
    exact congrArg Except.ok (congrArg (Option.getD _) (fresh_content register))
  · intro next done taken
    have moved := (step_ok_iff final next).mp done
    obtain ⟨_, -, ⟨untaken, -⟩ | ⟨-, -, landed⟩⟩ := successor_moves final next moved
    · rw [untaken] at taken
      cases taken
    · exact ⟨_, zero_or_offers (final.pc + 1) count _ final reached (fresh_content _), landed⟩

theorem second_load_steers_the_jump :
    ∃ first final next, withProgram [0b10000010, 7, 9, 0b10000010, 7, 3, 0b01010100] = .ok first ∧
      step.Completes 2 first final ∧ step.run final = .ok () next ∧ final.jumps ∧
      final.registers.get 7 = .ok 3 ∧ first.memory.Offers 7 3 ∧
      ∃ value, (value = 0 ∨ first.memory.Offers 7 value) ∧ next.pc = value.toNat + 2 := by
  obtain ⟨first, loaded, holds⟩ :=
    registers_hold_latest_loads [0b10000010, 7, 9, 0b10000010, 7, 3, 0b01010100] (by decide)
  obtain ⟨final, next, reached, done, taken, place, latest, content⟩ :
      ∃ final next, step.Completes 2 first final ∧ step.run final = .ok () next ∧ final.jumps ∧ final.pc = 6 ∧
        first.latest (immediate? 7) 2 = some 3 ∧ final.registers.content 7 = 3 := by
    obtain rfl := Except.ok.inj loaded
    exact ⟨_, _, .more rfl (.more rfl (.none _)), rfl, rfl, rfl, rfl, rfl⟩
  obtain ⟨registers, landing⟩ := holds 2 final reached
  obtain ⟨held, source⟩ := registers 7 (by decide)
  rw [latest] at held
  rw [content] at source
  have jumped := landing next done taken
  rw [place] at jumped
  exact ⟨first, final, next, loaded, reached, done, taken, held, source.resolve_left (by decide), jumped⟩

end Machine

end StoredProgram
