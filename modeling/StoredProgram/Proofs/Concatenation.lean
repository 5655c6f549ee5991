import StoredProgram.Proofs.Tiling

set_option autoImplicit false

namespace StoredProgram

theorem cell_behind (first second : List Byte) (index : Nat) :
    (first ++ second)[index + first.length]? = second[index]? := by
  rw [List.getElem?_append_right (Nat.le_add_left _ _), Nat.add_sub_cancel]

namespace Instruction

def shift (distance : Nat) : Instruction → Instruction
  | .load register value => .load register value
  | .compare => .compare
  | .jump condition register => .jump condition (register + distance)

@[simp]
theorem size_shift (instruction : Instruction) (distance : Nat) : (instruction.shift distance).size = instruction.size := by
  cases instruction <;> rfl

theorem StandsAt.append {first : List Byte} {address : Nat} {instruction : Instruction}
    (stands : instruction.StandsAt first address) (second : List Byte) :
    instruction.StandsAt (first ++ second) address := by
  have kept {index : Nat} {byte : Byte} (held : first[index]? = some byte) : (first ++ second)[index]? = some byte := by
    rw [List.getElem?_append_left (List.getElem?_eq_some_iff.mp held).1]
    exact held
  cases instruction with
  | load => exact ⟨kept stands.1, kept stands.2.1, kept stands.2.2⟩
  | compare => exact kept stands
  | jump => exact ⟨kept stands.1, stands.2⟩

-- A jump takes its register along, since it has it from its address.
theorem StandsAt.behind {second : List Byte} {address : Nat} {instruction : Instruction}
    (stands : instruction.StandsAt second address) (first : List Byte) :
    (instruction.shift first.length).StandsAt (first ++ second) (address + first.length) := by
  have moved (count : Nat) : (first ++ second)[address + first.length + count]? = second[address + count]? := by
    rw [Nat.add_right_comm, cell_behind]
  cases instruction with
  | load => exact ⟨(moved 0).trans stands.1, (moved 1).trans stands.2.1, (moved 2).trans stands.2.2⟩
  | compare => exact (moved 0).trans stands
  | jump condition register =>
      obtain ⟨opcode, rfl⟩ := stands
      exact ⟨(moved 0).trans opcode, Nat.add_right_comm address 1 first.length⟩

end Instruction

namespace Listing

def uncut (rows : List Row) : List Row :=
  rows.takeWhile fun row => !row.cutOff

def Row.shift (distance : Nat) : Row → Row
  | .code address instruction => .code (address + distance) (instruction.shift distance)
  | .data address byte => .data (address + distance) byte

def pastRows (start : Nat) (rows : List Row) : Nat :=
  rows.foldl (fun _ row => row.address + row.size) start

@[simp]
theorem Row.address_shift (row : Row) (distance : Nat) : (row.shift distance).address = row.address + distance := by
  cases row <;> rfl

@[simp]
theorem Row.size_shift (row : Row) (distance : Nat) : (row.shift distance).size = row.size := by
  cases row with
  | code _ instruction => exact instruction.size_shift distance
  | data => rfl

theorem Row.StandsIn.append {first : List Byte} {row : Row} (stands : row.StandsIn first) (whole : row.cutOff = false)
    (second : List Byte) : row.StandsIn (first ++ second) := by
  cases row with
  | code address instruction =>
      have placed := (Instruction.decode_eq_ok_iff first address instruction).mp stands
      exact (Instruction.decode_eq_ok_iff _ address instruction).mpr (placed.append second)
  | data address byte =>
      obtain ⟨held, failed⟩ := stands
      have heldToo : (first ++ second)[address]? = some byte := by
        rw [List.getElem?_append_left (List.getElem?_eq_some_iff.mp held).1]
        exact held
      rcases (Instruction.decode_fails_iff first address byte held).mp failed with unknown | ⟨load, -⟩
      · exact ⟨heldToo, (Instruction.decode_fails_iff _ address byte heldToo).mpr (.inl unknown)⟩
      · exact absurd load (of_decide_eq_false whole)

theorem Row.StandsIn.behind {second : List Byte} {row : Row} (stands : row.StandsIn second) (first : List Byte) :
    (row.shift first.length).StandsIn (first ++ second) := by
  cases row with
  | code address instruction =>
      have placed := (Instruction.decode_eq_ok_iff second address instruction).mp stands
      exact (Instruction.decode_eq_ok_iff _ _ _).mpr (placed.behind first)
  | data address byte =>
      obtain ⟨held, failed⟩ := stands
      have heldToo : (first ++ second)[address + first.length]? = some byte := by
        rw [cell_behind]
        exact held
      have short : (first ++ second).length ≤ address + first.length + 2 ↔ second.length ≤ address + 2 := by
        rw [List.length_append]
        omega
      have unread := (Instruction.decode_fails_iff second address byte held).mp failed
      rw [← short] at unread
      exact ⟨heldToo, (Instruction.decode_fails_iff _ _ byte heldToo).mpr unread⟩

section Walks

variable {first second : List Byte} {start : Nat} {rows more : List Row}

-- The walk over more bytes passes the same rows until it comes to a load that was cut off.
theorem Walk.uncut_isPrefix (walk : Walk first start rows) (second : List Byte) :
    uncut rows <+: rowsAt (first ++ second) start := by
  induction walk with
  | ended => exact List.nil_prefix
  | @next row rows stands walk ih =>
      cases cut : row.cutOff with
      | true =>
          rw [uncut, List.takeWhile_cons_of_neg (by simp [cut])]
          exact List.nil_prefix
      | false =>
          rw [uncut, List.takeWhile_cons_of_pos (by simp [cut]), rows_at_row _ row (stands.append cut second)]
          exact (List.prefix_cons_inj row).mpr ih

theorem Walk.append (walk : Walk first start rows) (whole : ∀ row ∈ rows, row.cutOff = false)
    (ends : pastRows start rows = first.length) (onward : Walk (first ++ second) first.length more) :
    Walk (first ++ second) start (rows ++ more) := by
  induction walk with
  | ended outside =>
      obtain rfl : _ = first.length := ends
      exact onward
  | next stands walk ih =>
      obtain ⟨here, others⟩ := List.forall_mem_cons.mp whole
      exact .next (stands.append here second) (ih others ends)

theorem Walk.behind (walk : Walk second start rows) (first : List Byte) :
    Walk (first ++ second) (start + first.length) (rows.map (Row.shift first.length)) := by
  induction walk with
  | ended outside =>
      refine .ended ?_
      rw [List.length_append, Nat.add_comm]
      exact Nat.add_le_add_right outside _
  | @next row rows stands walk ih =>
      rw [List.map_cons]
      refine (walk_cons_iff _).mpr ⟨row.address_shift _, stands.behind first, ?_⟩
      rw [Row.address_shift, Row.size_shift, Nat.add_right_comm]
      exact ih

end Walks

theorem listing_append (first second : List Byte) :
    uncut (listing first) <+: listing (first ++ second) ∧
    (uncut (listing first) = listing first →
      (first = [] ∨ ∃ before last, listing first = before ++ [last] ∧ last.address + last.size = first.length) →
      listing (first ++ second) = listing first ++ (listing second).map (Row.shift first.length)) := by
  have walk : Walk first 0 (listing first) := walk_rows_at first 0
  refine ⟨walk.uncut_isPrefix second, ?_⟩
  intro complete ends
  have whole : ∀ row ∈ listing first, row.cutOff = false := by
    intro row member
    rw [← complete] at member
    have kept := List.all_eq_true.mp List.all_takeWhile row member
    simpa using kept
  have past : pastRows 0 (listing first) = first.length := by
    rcases ends with rfl | ⟨before, last, split, ends⟩
    · rfl
    · rw [split, pastRows, List.foldl_append]
      exact ends
  have onward : Walk (first ++ second) (0 + first.length) _ := (walk_rows_at second 0).behind first
  rw [Nat.zero_add] at onward
  exact ((walk_iff _ 0 _).mp (walk.append whole past onward)).symm

theorem jump_moves_along :
    listing ([0b10000010, 0, 8] ++ [0b10100111, 1, 2, 0b01010100, 9]) =
        [.code 0 (.load 0 8), .code 3 .compare, .code 6 (.jump .always 7)] ∧
      [.data 0 1] <+: listing ([1, 0b10000010, 0] ++ [8, 0b01010100]) ∧
      listing ([1, 0b10000010, 0] ++ [8, 0b01010100]) ≠ listing [1, 0b10000010, 0] ++
        (listing [8, 0b01010100]).map (Row.shift 3) := by
  obtain ⟨-, append⟩ := listing_append [0b10000010, 0, 8] [0b10100111, 1, 2, 0b01010100, 9]
  obtain ⟨start, -⟩ := listing_append [1, 0b10000010, 0] [8, 0b01010100]
  refine ⟨?_, start, by decide⟩
  rw [append rfl (.inr ⟨[], .code 0 (.load 0 8), rfl, rfl⟩)]
  rfl

end Listing

end StoredProgram
