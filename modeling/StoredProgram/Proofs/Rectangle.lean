import StoredProgram.Machine.Table
import StoredProgram.Proofs.Framing

set_option autoImplicit false

namespace StoredProgram

open Text

def foreign : List Char :=
  ['\n', '*']

section Foreign

variable {character : Char} (outside : character ∈ foreign)

include outside

theorem foreign_cases : character = '\n' ∨ character = '*' := by
  simpa [foreign] using outside

theorem foreign_unframed : character ∉ Grid.frame := by
  rcases foreign_cases outside with rfl | rfl <;> decide

theorem foreign_no_digit : character.isDigit = false := by
  rcases foreign_cases outside with rfl | rfl <;> decide

theorem foreign_solid : character ≠ ' ' :=
  fun blank => foreign_unframed outside (blank ▸ List.mem_cons_self)

theorem not_mem_contents (byte : Byte) : character ∉ byte.contents.toList := by
  have digit := foreign_no_digit outside
  have solid := foreign_solid outside
  simp [Byte.contents, not_mem_pad_left _ _ solid, not_mem_binary 8 _ digit, not_mem_decimal _ _ digit, solid]

theorem not_mem_address (address : Address) : character ∉ address.text.toList := by
  have digit := foreign_no_digit outside
  cases address with
  | memory index => rcases foreign_cases outside with rfl | rfl <;> simp [Address.text, not_mem_decimal _ _ digit]
  | register index => rcases foreign_cases outside with rfl | rfl <;> simp [Address.text, not_mem_decimal _ _ digit]

theorem not_mem_heading (machine : Machine) : character ∉ machine.heading.toList := by
  have digit := foreign_no_digit outside
  have name : character ∉ machine.flag.name.toList := by
    rcases foreign_cases outside with rfl | rfl <;> cases machine.flag <;> decide
  rcases foreign_cases outside with rfl | rfl <;>
    simp [Machine.heading, not_mem_decimal _ _ digit, not_mem_binary 3 _ digit, name]

theorem not_mem_cell_row (marked : Bool) (label : String) (byte : Byte) (free : character ∉ label.toList)
    (unmarked : marked = true → character ∉ counterMark.toList) :
    character ∉ (cellRow marked label byte).1.toList ∧ character ∉ (cellRow marked label byte).2.toList := by
  refine ⟨?_, not_mem_contents outside byte⟩
  cases marked with
  | false => rcases foreign_cases outside with rfl | rfl <;> simp [cellRow, free]
  | true =>
      have mark := unmarked rfl
      rcases foreign_cases outside with rfl | rfl <;> simp [cellRow, free, mark]

theorem not_mem_cell_grid (cells : List (String × Byte)) (marked : Option Nat)
    (free : ∀ cell ∈ cells, character ∉ cell.1.toList) (unmarked : marked ≠ none → character ∉ counterMark.toList) :
    ∀ text ∈ (cellGrid cells marked).lines, character ∉ text.toList := by
  apply Grid.not_mem_lines _ (foreign_unframed outside)
  refine List.forall_mem_cons.mpr ⟨?_, ?_⟩
  · change character ∉ "Address".toList ∧ character ∉ "Contents".toList
    rcases foreign_cases outside with rfl | rfl <;> decide
  · intro row member
    obtain ⟨⟨⟨label, byte⟩, position⟩, listed, rfl⟩ := List.mem_map.mp member
    apply not_mem_cell_row outside
    · exact free _ (List.fst_mem_of_mem_zipIdx listed)
    · intro here
      apply unmarked
      rw [← of_decide_eq_true here]
      exact Option.some_ne_none position

theorem not_mem_register_grid (registers : Registers) : ∀ text ∈ registers.grid.lines, character ∉ text.toList := by
  refine not_mem_cell_grid outside _ none ?_ (fun unmarked => absurd rfl unmarked)
  intro cell member
  obtain ⟨⟨byte, index⟩, -, rfl⟩ := List.mem_map.mp member
  have address := not_mem_address outside (.register index)
  by_cases pointer : index = Registers.stackPointer
  · rcases foreign_cases outside with rfl | rfl <;> simp [Registers.label, pointer, pointer ▸ address]
  · simp [Registers.label, pointer, address]

end Foreign

namespace Machine

theorem memory_lines_unbroken (machine : Machine) : ∀ text ∈ machine.memoryGrid.lines, '\n' ∉ text.toList := by
  have newline : '\n' ∈ foreign := by decide
  refine not_mem_cell_grid newline _ _ ?_ (fun _ => by decide)
  intro cell member
  obtain ⟨⟨byte, index⟩, -, rfl⟩ := List.mem_map.mp member
  exact not_mem_address newline (.memory index)

theorem lines_unbroken (machine : Machine) : ∀ text ∈ machine.grid.lines, '\n' ∉ text.toList := by
  have newline : '\n' ∈ foreign := by decide
  apply Grid.not_mem_lines _ (foreign_unframed newline)
  have titles : '\n' ∉ "Registers".toList ∧ '\n' ∉ "Memory".toList := by decide
  refine List.forall_mem_cons.mpr ⟨titles, ?_⟩
  intro cells member
  obtain ⟨position, held⟩ := List.mem_iff_getElem?.mp member
  rw [left_of_pair held, right_of_pair held]
  constructor
  · cases found : machine.registers.grid.lines[position]? with
    | none => simp
    | some text => exact not_mem_register_grid newline machine.registers text (List.mem_of_getElem? found)
  · cases found : machine.memoryGrid.lines[position]? with
    | none => simp
    | some text => exact machine.memory_lines_unbroken text (List.mem_of_getElem? found)

theorem cell_grid_wide (cells : List (String × Byte)) (marked : Option Nat) : 22 ≤ (cellGrid cells marked).width := by
  have left : "Address".length ≤ (cellGrid cells marked).leftWidth :=
    (cellGrid cells marked).left_fits List.mem_cons_self
  have right : "Contents".length ≤ (cellGrid cells marked).rightWidth :=
    (cellGrid cells marked).right_fits List.mem_cons_self
  have address : "Address".length = 7 := by decide
  have contents : "Contents".length = 8 := by decide
  rw [Grid.width]
  omega

theorem widest_column (title : String) (grid : Grid) (count : Nat) (narrow : title.length ≤ grid.width) :
    widest (title :: (grid.lines ++ List.replicate count "")) = grid.width := by
  have uniform : widest grid.lines = grid.width :=
    widest_of_uniform (List.cons_ne_nil _ _) fun _ member => grid.length_of_mem_lines member
  have rest : widest (grid.lines ++ List.replicate count "") = grid.width := by
    rw [widest_append, uniform, widest_replicate_empty, Nat.max_zero]
  rw [widest, List.foldr_cons, ← widest, rest, Nat.max_eq_right narrow]

theorem grid_left_width (machine : Machine) : machine.grid.leftWidth = machine.registers.grid.width := by
  have title : "Registers".length ≤ 22 := by decide
  rw [Grid.leftWidth, grid, List.map_cons, pair_cells_left]
  exact widest_column _ _ _ (Nat.le_trans title (cell_grid_wide _ _))

theorem grid_right_width (machine : Machine) : machine.grid.rightWidth = machine.memoryGrid.width := by
  have title : "Memory".length ≤ 22 := by decide
  rw [Grid.rightWidth, grid, List.map_cons, pair_cells_right]
  exact widest_column _ _ _ (Nat.le_trans title (cell_grid_wide _ _))

theorem count_shown (cells : List Byte) (start counter : Nat) :
    (cells.zipIdx start).countP (fun (byte, index) => byte != 0 || index == counter) =
      cells.countP (· ≠ 0) + if start ≤ counter ∧ cells[counter - start]? = some 0 then 1 else 0 := by
  induction cells generalizing start with
  | nil => simp
  | cons byte cells ih =>
      rw [List.zipIdx_cons, List.countP_cons, List.countP_cons, ih (start + 1)]
      rcases Nat.lt_trichotomy counter start with before | rfl | behind
      · have away : start ≠ counter := Nat.ne_of_gt before
        have out : ¬ start ≤ counter := by omega
        have outToo : ¬ start + 1 ≤ counter := by omega
        simp [away, out, outToo, Nat.add_comm]
      · have out : ¬ counter + 1 ≤ counter := by omega
        by_cases zero : byte = 0 <;> simp [zero, out]
      · have away : start ≠ counter := Nat.ne_of_lt behind
        have inside : start ≤ counter ∧ start + 1 ≤ counter := by omega
        have shifted : counter - start = counter - (start + 1) + 1 := by omega
        simp [away, inside, shifted, Nat.add_right_comm]

theorem length_shown_cells (machine : Machine) :
    machine.shownCells.length = machine.memory.cells.countP (· ≠ 0) +
      if machine.memory.cells[machine.pc]? = some 0 then 1 else 0 := by
  rw [shownCells, ← List.countP_eq_length_filter, count_shown]
  simp

theorem length_grid_lines (machine : Machine) :
    machine.grid.lines.length = 6 + max Registers.count machine.shownCells.length := by
  have registers : machine.registers.grid.lines.length = Registers.count + 3 := by
    rw [Grid.length_lines]
    simp [Registers.grid, cellGrid, machine.registers.length_cells]
  have memory : machine.memoryGrid.lines.length = machine.shownCells.length + 3 := by
    rw [Grid.length_lines]
    simp [memoryGrid, cellGrid]
  rw [Grid.length_lines, grid, length_pair_cells, registers, memory]
  omega

theorem state_table_is_rectangular (machine : Machine) :
    ∃ lines : List String, machine.table = unlines (machine.heading :: lines) ∧
      (∀ line ∈ machine.heading :: lines, '\n' ∉ line.toList) ∧
      lines.length = 6 + max 8 (machine.memory.cells.countP (· ≠ 0) +
        if machine.memory.cells[machine.pc]? = some 0 then 1 else 0) ∧
      (∃ width, ∀ line ∈ lines, line.length = width) ∧
      ∃ width, (∀ line ∈ machine.registers.grid.lines, line.length = width) ∧
        ∀ position line, lines[position]? = some line →
          line.toList[width + 3]? =
            some (if position = 1 then '┼' else if position + 1 = lines.length then '┴' else '│') := by
  refine ⟨machine.grid.lines, rfl, ?_, ?_, ?_, ?_⟩
  · exact List.forall_mem_cons.mpr ⟨not_mem_heading (by decide) machine, machine.lines_unbroken⟩
  · rw [length_grid_lines, length_shown_cells]
    rfl
  · exact ⟨machine.grid.width, fun _ member => machine.grid.length_of_mem_lines member⟩
  · refine ⟨machine.registers.grid.width, fun _ member => machine.registers.grid.length_of_mem_lines member, ?_⟩
    intro position line held
    rw [← grid_left_width]
    exact machine.grid.separator_of_lines held

def crowded : Machine :=
  { fresh with memory := ⟨List.replicate Memory.capacity 1, List.length_replicate⟩, pc := Memory.capacity }

theorem crowded_table_is_high :
    ∃ lines line, crowded.table = unlines (crowded.heading :: lines) ∧ lines.length = 106 ∧
      lines[1]? = some line ∧ '\n' ∉ line.toList ∧ line.toList[31]? = some '┼' := by
  obtain ⟨lines, table, unbroken, count, -, width, registers, separators⟩ := state_table_is_rectangular crowded
  have high : lines.length = 106 := by
    rw [count]
    decide +kernel
  have wide : (crowded.registers.grid.line crowded.registers.grid.titles).length = 28 := by decide +kernel
  obtain rfl : 28 = width := wide.symm.trans (registers _ List.mem_cons_self)
  have inside : 1 < lines.length := by omega
  have held := List.getElem?_eq_getElem inside
  exact ⟨lines, _, table, high, held, unbroken _ (List.mem_cons_of_mem _ (List.getElem_mem inside)),
    separators 1 _ held⟩

end Machine

end StoredProgram
