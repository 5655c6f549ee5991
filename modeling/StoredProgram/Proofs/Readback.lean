import StoredProgram.Proofs.Rectangle

set_option autoImplicit false

namespace StoredProgram

open Text

theorem cell_grid_row (cells : List (String × Byte)) (marked : Option Nat) (position : Nat) :
    (cellGrid cells marked).rows[position]? =
      cells[position]?.map fun (label, byte) => cellRow (some position = marked) label byte := by
  simp [cellGrid, List.getElem?_zipIdx, Function.comp_def]

theorem contents_inj {width : Nat} {first second : Byte}
    (same : padRight width first.contents = padRight width second.contents) : first = second := by
  have chars := congrArg String.toList same
  simp only [to_list_pad_right, Byte.contents, String.toList_append, List.append_assoc] at chars
  have digits (byte : Byte) : (binary 8 byte.toNat).toList.length = 8 := by
    rw [binary, String.toList_ofList, length_binary_digits]
  obtain ⟨binaries, -⟩ := List.append_inj chars ((digits first).trans (digits second).symm)
  have numbers := (binary_inj first.toNat_lt second.toNat_lt).mp (String.toList_inj.mp binaries)
  exact UInt8.toNat_inj.mp numbers

theorem Grid.padded_congr {first second : Grid} (alignments : first.alignment = second.alignment)
    (widths : first.leftWidth = second.leftWidth ∧ first.rightWidth = second.rightWidth) :
    first.padded = second.padded := by
  funext cells
  rw [Grid.padded, Grid.padded, alignments, widths.1, widths.2]

namespace Registers

theorem grid_row (registers : Registers) (index : Nat) :
    registers.grid.rows[index]? = registers.cells[index]?.map (cellRow false (label index)) := by
  rw [grid, cell_grid_row, List.getElem?_map, List.getElem?_zipIdx, Nat.zero_add, Option.map_map, Option.map_map]
  rfl

theorem lines_inj {first second : Registers} (same : first.grid.lines = second.grid.lines) : first = second := by
  obtain ⟨widths, rows⟩ := Grid.lines_inj same
  have alike : first.grid.padded = second.grid.padded := Grid.padded_congr rfl widths
  have cells : first.cells = second.cells := by
    refine List.ext_getElem? fun index => ?_
    have here := congrArg (·[index]?) rows
    simp only [List.getElem?_map, grid_row, Option.map_map, alike] at here
    have told (byte other : Byte) (padded : (second.grid.padded ∘ cellRow false (label index)) byte =
        (second.grid.padded ∘ cellRow false (label index)) other) : byte = other := by
      rw [Function.comp_apply, Function.comp_apply] at padded
      have contents := congrArg Prod.snd padded
      exact contents_inj contents
    exact (Option.map_inj_right told).mp here
  cases first
  cases second
  cases cells
  rfl

end Registers

namespace Machine

theorem mem_shown_cells_iff (machine : Machine) (byte : Byte) (index : Nat) :
    (byte, index) ∈ machine.shownCells ↔
      machine.memory.cells[index]? = some byte ∧ (byte ≠ 0 ∨ index = machine.pc) := by
  rw [shownCells, List.mem_filter, List.mem_zipIdx_iff_getElem?]
  simp

theorem shown_cells_ascend (machine : Machine) : (machine.shownCells.map Prod.snd).Pairwise (· < ·) := by
  have shown : (machine.shownCells.map Prod.snd).Sublist (machine.memory.cells.zipIdx.map Prod.snd) :=
    List.filter_sublist.map Prod.snd
  rw [List.zipIdx_map_snd] at shown
  exact (List.pairwise_lt_range' 1).sublist shown

-- No cell is shown twice, so that the first one found at the program counter is the only one.
theorem counter_position_iff (machine : Machine) {position index : Nat} {byte : Byte}
    (shown : machine.shownCells[position]? = some (byte, index)) :
    some position = machine.counterPosition? ↔ index = machine.pc := by
  obtain ⟨inside, cell⟩ := List.getElem?_eq_some_iff.mp shown
  rw [eq_comm, counterPosition?, List.findIdx?_eq_some_iff_getElem]
  constructor
  · rintro ⟨_, found, _⟩
    rw [cell] at found
    exact beq_iff_eq.mp found
  · intro counter
    refine ⟨inside, ?_, ?_⟩
    · rw [cell]
      exact beq_iff_eq.mpr counter
    · intro earlier before found
      have ascent := List.pairwise_iff_getElem.mp (List.pairwise_map.mp machine.shown_cells_ascend) earlier position
        (Nat.lt_trans before inside) inside before
      rw [cell, counter, beq_iff_eq.mp found] at ascent
      exact Nat.lt_irrefl _ ascent

def memoryRow (machine : Machine) : Byte × Nat → String × String
  | (byte, index) => cellRow (index = machine.pc) (Address.memory index).text byte

theorem memory_grid_rows (machine : Machine) : machine.memoryGrid.rows = machine.shownCells.map machine.memoryRow := by
  refine List.ext_getElem? fun position => ?_
  rw [memoryGrid, cell_grid_row, List.getElem?_map, List.getElem?_map, Option.map_map]
  cases shown : machine.shownCells[position]? with
  | none => rfl
  | some cell =>
      obtain ⟨byte, index⟩ := cell
      simp only [Option.map_some, Function.comp_apply, memoryRow, machine.counter_position_iff shown]

theorem memory_label_head (machine : Machine) (cell : Byte × Nat) :
    (machine.memoryRow cell).1.toList.head? = some (if cell.2 = machine.pc then '*' else 'R') := by
  by_cases here : cell.2 = machine.pc <;> simp [memoryRow, cellRow, here, counterMark, Address.text]

-- The mark of a row goes by its index, and the index shows behind the mark.
theorem memory_label_inj (machine : Machine) {first second : Byte × Nat}
    (same : (machine.memoryRow first).1 = (machine.memoryRow second).1) : first.2 = second.2 := by
  have heads : (machine.memoryRow first).1.toList.head? = (machine.memoryRow second).1.toList.head? := by rw [same]
  rw [memory_label_head, memory_label_head] at heads
  by_cases here : first.2 = machine.pc
  · by_cases hereToo : second.2 = machine.pc
    · exact here.trans hereToo.symm
    · simp [here, hereToo] at heads
  · by_cases hereToo : second.2 = machine.pc
    · simp [here, hereToo] at heads
    · have labels := (String.append_left_inj " =").mp same
      simp only [here, hereToo, decide_false, Bool.false_eq_true, if_false, String.empty_append] at labels
      exact Address.memory.inj (Address.text_inj.mp labels)

theorem memory_label_solid (machine : Machine) (cell : Byte × Nat) :
    (machine.memoryRow cell).1.toList.head? ≠ some ' ' := by
  rw [memory_label_head]
  split <;> decide

theorem memory_row_inj (machine : Machine) {first second : Byte × Nat}
    (same : machine.memoryGrid.padded (machine.memoryRow first) = machine.memoryGrid.padded (machine.memoryRow second)) :
    first = second := by
  have labels := congrArg Prod.fst same
  have contents := congrArg Prod.snd same
  have index := machine.memory_label_inj
    ((pad_left_inj (machine.memory_label_solid first) (machine.memory_label_solid second)).mp labels)
  exact Prod.ext (contents_inj contents) index

theorem memory_lines_inj {first second : Machine} (counters : first.pc = second.pc)
    (same : first.memoryGrid.lines = second.memoryGrid.lines) : first.shownCells = second.shownCells := by
  obtain ⟨widths, rows⟩ := Grid.lines_inj same
  have alike : first.memoryGrid.padded = second.memoryGrid.padded := Grid.padded_congr rfl widths
  have rowsToo : second.memoryRow = first.memoryRow := by
    funext cell
    rw [memoryRow, memoryRow, counters]
  rw [memory_grid_rows, memory_grid_rows, rowsToo, ← alike, List.map_map, List.map_map] at rows
  exact (List.map_inj_right fun _ _ => first.memory_row_inj).mp rows

theorem memory_of_shown_cells {first second : Machine} (counters : first.pc = second.pc)
    (shown : first.shownCells = second.shownCells) : first.memory.cells = second.memory.cells := by
  have told {machine other : Machine} (counters : machine.pc = other.pc) (shown : machine.shownCells = other.shownCells)
      {index : Nat} {byte : Byte} (held : machine.memory.cells[index]? = some byte)
      (telling : byte ≠ 0 ∨ index = machine.pc) : other.memory.cells[index]? = some byte := by
    have member := (machine.mem_shown_cells_iff byte index).mpr ⟨held, telling⟩
    rw [shown] at member
    exact ((other.mem_shown_cells_iff byte index).mp member).1
  have lengths : first.memory.cells.length = second.memory.cells.length :=
    first.memory.length_cells.trans second.memory.length_cells.symm
  refine List.ext_getElem lengths fun index inside insideToo => ?_
  have held := List.getElem?_eq_getElem inside
  have heldToo := List.getElem?_eq_getElem insideToo
  by_cases telling : first.memory.cells[index] ≠ 0 ∨ index = first.pc
  · exact (Option.some.inj (heldToo.symm.trans (told counters shown held telling))).symm
  · by_cases tellingToo : second.memory.cells[index] ≠ 0 ∨ index = second.pc
    · exact Option.some.inj (held.symm.trans (told counters.symm shown.symm heldToo tellingToo))
    · simp only [not_or, Decidable.not_not] at telling tellingToo
      rw [telling.1, tellingToo.1]

theorem grid_columns (machine : Machine) :
    ∃ below belowToo, (machine.grid.rows.map machine.grid.padded).map Prod.fst =
        machine.registers.grid.lines ++ List.replicate below (blanks machine.grid.leftWidth) ∧
      (machine.grid.rows.map machine.grid.padded).map Prod.snd =
        machine.memoryGrid.lines ++ List.replicate belowToo (blanks machine.grid.rightWidth) := by
  have left : Prod.fst ∘ machine.grid.padded = padRight machine.grid.leftWidth ∘ Prod.fst := rfl
  have right : Prod.snd ∘ machine.grid.padded = padRight machine.grid.rightWidth ∘ Prod.snd := rfl
  have lefts := pair_cells_left machine.registers.grid.lines machine.memoryGrid.lines
  have rights := pair_cells_right machine.registers.grid.lines machine.memoryGrid.lines
  rw [List.map_map, List.map_map, left, right, ← List.map_map, ← List.map_map, grid_left_width, grid_right_width, grid,
    lefts, rights, Grid.padded_column, Grid.padded_column]
  exact ⟨_, _, rfl, rfl⟩

theorem grid_lines_inj {first second : Machine} (same : first.grid.lines = second.grid.lines) :
    first.registers.grid.lines = second.registers.grid.lines ∧
      first.memoryGrid.lines = second.memoryGrid.lines := by
  obtain ⟨⟨lefts, rights⟩, rows⟩ := Grid.lines_inj same
  obtain ⟨below, belowToo, left, right⟩ := first.grid_columns
  obtain ⟨under, underToo, leftToo, rightToo⟩ := second.grid_columns
  rw [rows, leftToo, lefts] at left
  rw [rows, rightToo, rights] at right
  exact ⟨(Grid.column_inj (Grid.blanks_not_mem_lines _ _) (Grid.blanks_not_mem_lines _ _) left).symm,
    (Grid.column_inj (Grid.blanks_not_mem_lines _ _) (Grid.blanks_not_mem_lines _ _) right).symm⟩

end Machine

def Flag.text (flag : Flag) : String :=
  "FL: " ++ flag.name ++ " (" ++ binary 3 flag.bits.toNat ++ ")"

theorem Flag.text_inj {first second : Flag} (same : first.text = second.text) : first = second := by
  revert same
  cases first <;> cases second <;> decide

theorem Flag.tab_not_mem_text (flag : Flag) : '\t' ∉ flag.text.toList := by
  cases flag <;> decide

namespace Machine

theorem heading_inj {first second : Machine} (same : first.heading = second.heading) :
    first.pc = second.pc ∧ first.flag = second.flag ∧ first.steps = second.steps := by
  have parts (machine : Machine) : machine.heading.toList = ("PC: ".toList ++ (decimal machine.pc).toList) ++
      '\t' :: (machine.flag.text.toList ++ '\t' :: ("Steps: ".toList ++ (decimal machine.steps).toList)) := by
    simp [heading, Flag.text]
  have free (number : Nat) : '\t' ∉ "PC: ".toList ++ (decimal number).toList := by
    simp [not_mem_decimal number '\t' (by decide)]
  have chars := congrArg String.toList same
  rw [parts, parts] at chars
  obtain ⟨counters, rest⟩ := (marked_inj (free _) (free _)).mp chars
  obtain ⟨flags, counts⟩ := (marked_inj first.flag.tab_not_mem_text second.flag.tab_not_mem_text).mp rest
  refine ⟨?_, ?_, ?_⟩
  · exact decimal_inj.mp (String.toList_inj.mp ((List.append_right_inj _).mp counters))
  · exact Flag.text_inj (String.toList_inj.mp flags)
  · exact decimal_inj.mp (String.toList_inj.mp ((List.append_right_inj _).mp counts))

theorem table_inj {first second : Machine} (same : first.table = second.table) :
    first.pc = second.pc ∧ first.flag = second.flag ∧ first.steps = second.steps ∧
      first.registers = second.registers ∧ first.memory.cells = second.memory.cells := by
  have unbroken (machine : Machine) : ∀ line ∈ machine.heading :: machine.grid.lines, '\n' ∉ line.toList :=
    List.forall_mem_cons.mpr ⟨not_mem_heading (by decide) machine, machine.lines_unbroken⟩
  obtain ⟨headings, grids⟩ := List.cons.inj ((unlines_inj (unbroken first) (unbroken second)).mp same)
  obtain ⟨counters, flags, counts⟩ := heading_inj headings
  obtain ⟨registers, memories⟩ := grid_lines_inj grids
  exact ⟨counters, flags, counts, Registers.lines_inj registers,
    memory_of_shown_cells counters (memory_lines_inj counters memories)⟩

-- The mark starts with a star, and no other part of a table holds one.
theorem unmarked_of_starless {text : String} (starless : '*' ∉ text.toList) : ¬ counterMark.toList <:+: text.toList :=
  fun marked => starless (marked.subset (by decide))

theorem memory_row_starless (machine : Machine) {cell : Byte × Nat} (away : cell.2 ≠ machine.pc) :
    '*' ∉ (machine.memoryRow cell).1.toList ∧ '*' ∉ (machine.memoryRow cell).2.toList := by
  have star : '*' ∈ foreign := by decide
  refine not_mem_cell_row star _ _ _ (not_mem_address star _) fun here => ?_
  exact absurd (of_decide_eq_true here) away

theorem memory_row_marked (machine : Machine) (byte : Byte) :
    counterMark.toList <:+: (machine.memoryRow (byte, machine.pc)).1.toList := by
  have label : (machine.memoryRow (byte, machine.pc)).1 =
      counterMark ++ (Address.memory machine.pc).text ++ " =" := by
    simp [memoryRow, cellRow]
  rw [label, String.toList_append, String.toList_append, List.append_assoc]
  exact (List.prefix_append _ _).isInfix

theorem memory_line_starred (machine : Machine) {position : Nat} {text : String}
    (held : machine.memoryGrid.lines[position]? = some text) (star : '*' ∈ text.toList) :
    ∃ row byte, position = row + 2 ∧ machine.shownCells[row]? = some (byte, machine.pc) := by
  have titles : '*' ∉ "Address".toList ∧ '*' ∉ "Contents".toList := by decide
  obtain ⟨row, cells, rfl, found, inside⟩ := Grid.row_of_mem _ (foreign_unframed (by decide)) titles held star
  rw [memory_grid_rows, List.getElem?_map, Option.map_eq_some_iff] at found
  obtain ⟨cell, shown, rfl⟩ := found
  by_cases away : cell.2 ≠ machine.pc
  · exact absurd inside (not_or.mpr (machine.memory_row_starless away))
  · have here := Decidable.not_not.mp away
    exact ⟨row, cell.1, rfl, here ▸ shown⟩

-- The lines of memory stand in the outer grid two lines lower, under its titles.
theorem line_beside (machine : Machine) {position : Nat} {text : String}
    (held : machine.memoryGrid.lines[position]? = some text) :
    ∃ left, machine.grid.lines[position + 2]? = some (machine.grid.line (left, text)) := by
  obtain ⟨left, paired⟩ := pair_of_right held
  exact ⟨left, machine.grid.line_of_row paired⟩

theorem line_of_shown (machine : Machine) {row : Nat} {cell : Byte × Nat}
    (shown : machine.shownCells[row]? = some cell) :
    ∃ left, machine.grid.lines[row + 4]? =
      some (machine.grid.line (left, machine.memoryGrid.line (machine.memoryRow cell))) := by
  have found : machine.memoryGrid.rows[row]? = some (machine.memoryRow cell) := by
    rw [memory_grid_rows, List.getElem?_map, shown]
    rfl
  exact machine.line_beside (machine.memoryGrid.line_of_row found)

theorem line_starred (machine : Machine) {position : Nat} {text : String}
    (held : machine.grid.lines[position]? = some text) (star : '*' ∈ text.toList) :
    ∃ row byte, position = row + 4 ∧ machine.shownCells[row]? = some (byte, machine.pc) := by
  have foreign : '*' ∈ foreign := by decide
  have titles : '*' ∉ "Registers".toList ∧ '*' ∉ "Memory".toList := by decide
  obtain ⟨line, cells, rfl, found, left | right⟩ := Grid.row_of_mem _ (foreign_unframed foreign) titles held star
  · rw [left_of_pair found] at left
    cases beside : machine.registers.grid.lines[line]? with
    | none => simp [beside] at left
    | some text =>
        rw [beside] at left
        exact absurd left (not_mem_register_grid foreign machine.registers text (List.mem_of_getElem? beside))
  · rw [right_of_pair found] at right
    cases beside : machine.memoryGrid.lines[line]? with
    | none => simp [beside] at right
    | some text =>
        rw [beside] at right
        obtain ⟨row, byte, rfl, shown⟩ := machine.memory_line_starred beside right
        exact ⟨row, byte, rfl, shown⟩

theorem line_marked_iff (machine : Machine) {position : Nat} {text : String}
    (held : machine.grid.lines[position]? = some text) :
    counterMark.toList <:+: text.toList ↔
      ∃ row byte, position = row + 4 ∧ machine.shownCells[row]? = some (byte, machine.pc) := by
  constructor
  · intro marked
    exact machine.line_starred held (marked.subset (by decide))
  · rintro ⟨row, byte, rfl, shown⟩
    obtain ⟨left, line⟩ := machine.line_of_shown shown
    obtain rfl := Option.some.inj (held.symm.trans line)
    have inner := Grid.left_infix_line machine.memoryGrid (machine.memoryRow (byte, machine.pc))
    exact ((machine.memory_row_marked byte).trans inner).trans (Grid.right_infix_line machine.grid (left, _))

theorem state_table_loses_nothing :
    (∀ first second : Machine, first.table = second.table →
      first.pc = second.pc ∧ first.flag = second.flag ∧ first.steps = second.steps ∧
        first.registers = second.registers ∧ first.memory.cells = second.memory.cells) ∧
    ∀ machine : Machine, ∃ (lines : List String) (shown : List (Byte × Nat)),
      machine.table = unlines lines ∧ (∀ line ∈ lines, '\n' ∉ line.toList) ∧
      (shown.map Prod.snd).Pairwise (· < ·) ∧
      (∀ byte index, (byte, index) ∈ shown ↔
        machine.memory.cells[index]? = some byte ∧ (byte ≠ 0 ∨ index = machine.pc)) ∧
      machine.memoryGrid.rows = shown.map machine.memoryRow ∧
      (∀ row cell, shown[row]? = some cell → ∃ left, lines[row + 5]? =
        some (machine.grid.line (left, machine.memoryGrid.line (machine.memoryRow cell)))) ∧
      (∀ position line, lines[position]? = some line →
        (counterMark.toList <:+: line.toList ↔ ∃ row byte, position = row + 5 ∧ shown[row]? = some (byte, machine.pc))) ∧
      (100 ≤ machine.pc → ∀ line ∈ lines, ¬ counterMark.toList <:+: line.toList) := by
  refine ⟨fun _ _ => table_inj, fun machine => ?_⟩
  have marks : ∀ position line, (machine.heading :: machine.grid.lines)[position]? = some line →
      (counterMark.toList <:+: line.toList ↔
        ∃ row byte, position = row + 5 ∧ machine.shownCells[row]? = some (byte, machine.pc)) := by
    rintro (_ | position) line held
    · obtain rfl : machine.heading = line := Option.some.inj held
      have star : '*' ∈ foreign := by decide
      have starless := not_mem_heading star machine
      exact ⟨fun marked => absurd marked (unmarked_of_starless starless), by rintro ⟨row, byte, impossible, -⟩; omega⟩
    · rw [List.getElem?_cons_succ] at held
      rw [machine.line_marked_iff held]
      simp only [Nat.succ_inj]
  have rows : ∀ row cell, machine.shownCells[row]? = some cell →
      ∃ left, (machine.heading :: machine.grid.lines)[row + 5]? =
        some (machine.grid.line (left, machine.memoryGrid.line (machine.memoryRow cell))) := by
    intro row cell shown
    rw [List.getElem?_cons_succ]
    exact machine.line_of_shown shown
  refine ⟨machine.heading :: machine.grid.lines, machine.shownCells, rfl, ?_, machine.shown_cells_ascend,
    machine.mem_shown_cells_iff, machine.memory_grid_rows, rows, marks, ?_⟩
  · exact List.forall_mem_cons.mpr ⟨not_mem_heading (by decide) machine, machine.lines_unbroken⟩
  · intro outside line member marked
    obtain ⟨position, held⟩ := List.mem_iff_getElem?.mp member
    obtain ⟨row, byte, -, shown⟩ := (marks position line held).mp marked
    have cell := ((machine.mem_shown_cells_iff byte machine.pc).mp (List.mem_of_getElem? shown)).1
    have inside := (List.getElem?_eq_some_iff.mp cell).1
    rw [machine.memory.length_cells] at inside
    exact absurd inside (Nat.not_lt.mpr outside)

theorem counter_marks_a_zero_cell :
    (∃ lines line, fresh.table = unlines lines ∧ line ∈ lines ∧ counterMark.toList <:+: line.toList) ∧
      (∃ lines, { fresh with pc := 100 }.table = unlines lines ∧
        ∀ line ∈ lines, ¬ counterMark.toList <:+: line.toList) ∧
      { fresh with pc := 100 }.table ≠ fresh.table ∧
      ∀ machine, withProgram [0, 0] = .ok machine → machine.table = fresh.table ∧
        machine.memory.cells = fresh.memory.cells := by
  obtain ⟨told, tables⟩ := state_table_loses_nothing
  refine ⟨?_, ?_, ?_, ?_⟩
  · obtain ⟨lines, shown, table, -, -, cells, -, rows, marks, -⟩ := tables fresh
    have member : ((0 : Byte), 0) ∈ shown := (cells 0 0).mpr ⟨rfl, .inr rfl⟩
    obtain ⟨row, held⟩ := List.mem_iff_getElem?.mp member
    obtain ⟨left, line⟩ := rows row _ held
    exact ⟨lines, _, table, List.mem_of_getElem? line, (marks _ _ line).mpr ⟨row, 0, rfl, held⟩⟩
  · obtain ⟨lines, shown, table, -, -, -, -, -, -, unmarked⟩ := tables { fresh with pc := 100 }
    exact ⟨lines, table, unmarked (Nat.le_refl 100)⟩
  · intro same
    exact absurd (told _ _ same).1 (by decide)
  · intro machine loaded
    obtain rfl : fresh = machine := Except.ok.inj loaded
    exact ⟨rfl, (told fresh fresh rfl).2.2.2.2⟩

end Machine

end StoredProgram
