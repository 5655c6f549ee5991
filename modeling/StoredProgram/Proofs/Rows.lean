import StoredProgram.Listing
import StoredProgram.Proofs.Decoding

set_option autoImplicit false

namespace StoredProgram

namespace Listing

def rowsAt (bytes : List Byte) (address : Nat) : List Row :=
  rowsFrom address 0 (bytes.drop address)

def Row.cutOff : Row → Bool
  | .code .. => false
  | .data _ byte => byte = Opcode.ldi.code

def Row.StandsIn (bytes : List Byte) : Row → Prop
  | .code address instruction => Instruction.decode bytes address = .ok instruction
  | .data address byte =>
      bytes[address]? = some byte ∧ ∃ fault, Instruction.decode bytes address = .error fault

inductive Walk (bytes : List Byte) : Nat → List Row → Prop
  | ended {address : Nat} : bytes.length ≤ address → Walk bytes address []
  | next {row : Row} {rows : List Row} : row.StandsIn bytes → Walk bytes (row.address + row.size) rows →
      Walk bytes row.address (row :: rows)

theorem row_at_address (address : Nat) (byte : Byte) (following : List Byte) :
    (rowAt address byte following).address = address := by
  unfold rowAt
  split <;> rfl

theorem row_at_append (address : Nat) (byte : Byte) (following more : List Byte)
    (whole : (rowAt address byte following).cutOff = false) :
    rowAt address byte (following ++ more) = rowAt address byte following := by
  cases coded : Opcode.ofByte? byte with
  | none => simp [rowAt, Instruction.decodeAt, coded]
  | some opcode =>
      cases opcode with
      | ldi =>
          obtain rfl := Opcode.of_byte_eq_some_iff.mp coded
          rcases following with _ | ⟨register, _ | ⟨value, rest⟩⟩
          · cases whole
          · cases whole
          · simp [rowAt, Instruction.decodeAt, coded]
      | cmp | jmp | jeq | jne => simp [rowAt, Instruction.decodeAt, coded]

theorem rows_at_outside (bytes : List Byte) (address : Nat) (outside : bytes.length ≤ address) :
    rowsAt bytes address = [] := by
  rw [rowsAt, List.drop_eq_nil_of_le outside]
  rfl

theorem Row.StandsIn.inside {bytes : List Byte} {row : Row} (stands : row.StandsIn bytes) :
    row.address < bytes.length := by
  cases row with
  | code address instruction => exact Instruction.decode_inside bytes address instruction stands
  | data address byte => exact (List.getElem?_eq_some_iff.mp stands.1).1

theorem Row.StandsIn.unique {bytes : List Byte} {row other : Row} (stands : row.StandsIn bytes)
    (standsToo : other.StandsIn bytes) (same : row.address = other.address) : row = other := by
  cases row with
  | code address instruction =>
      cases other with
      | code place another =>
          obtain rfl : address = place := same
          rw [Except.ok.inj (stands.symm.trans standsToo)]
      | data place byte =>
          obtain rfl : address = place := same
          obtain ⟨-, fault, failed⟩ := standsToo
          cases stands.symm.trans failed
  | data address byte =>
      obtain ⟨held, fault, failed⟩ := stands
      cases other with
      | code place another =>
          obtain rfl : address = place := same
          cases failed.symm.trans standsToo
      | data place another =>
          obtain rfl : address = place := same
          rw [Option.some.inj (held.symm.trans standsToo.1)]

theorem row_at_stands (bytes : List Byte) (address : Nat) (inside : address < bytes.length) :
    (rowAt address bytes[address] (bytes.drop (address + 1))).StandsIn bytes := by
  have decoding : Instruction.decode bytes address =
      Instruction.decodeAt address (bytes[address] :: bytes.drop (address + 1)) := by
    rw [Instruction.decode, List.drop_eq_getElem_cons inside]
  rw [rowAt, ← decoding]
  cases decoded : Instruction.decode bytes address with
  | ok instruction => exact decoded
  | error fault => exact ⟨List.getElem?_eq_getElem inside, fault, decoded⟩

theorem rows_at_inside (bytes : List Byte) (address : Nat) (inside : address < bytes.length) :
    ∃ row, row.address = address ∧ row.StandsIn bytes ∧
      rowsAt bytes address = row :: rowsAt bytes (address + row.size) := by
  have rest := List.drop_eq_getElem_cons inside
  refine ⟨_, row_at_address _ _ _, row_at_stands bytes address inside, ?_⟩
  rw [rowsAt, rest, rows_from_cons, ← rest, List.drop_drop]
  rfl

theorem rows_at_row (bytes : List Byte) (row : Row) (stands : row.StandsIn bytes) :
    rowsAt bytes row.address = row :: rowsAt bytes (row.address + row.size) := by
  obtain ⟨first, same, standsToo, rows⟩ := rows_at_inside bytes row.address stands.inside
  rw [rows, standsToo.unique stands same]

theorem rows_at_decoded (bytes : List Byte) (address : Nat) (instruction : Instruction)
    (decoded : Instruction.decode bytes address = .ok instruction) :
    rowsAt bytes address = .code address instruction :: rowsAt bytes (address + instruction.size) :=
  rows_at_row bytes (.code address instruction) decoded

theorem walk_rows_at (bytes : List Byte) (address : Nat) : Walk bytes address (rowsAt bytes address) := by
  by_cases inside : address < bytes.length
  · obtain ⟨row, rfl, stands, rows⟩ := rows_at_inside bytes address inside
    have positive := row.size_pos
    rw [rows]
    exact .next stands (walk_rows_at bytes (row.address + row.size))
  · have outside := Nat.le_of_not_lt inside
    rw [rows_at_outside bytes address outside]
    exact .ended outside
termination_by bytes.length - address

-- The rows of a listing are those of the walk, so that whatever holds along every walk holds of the listing.
theorem walk_iff (bytes : List Byte) (address : Nat) (rows : List Row) :
    Walk bytes address rows ↔ rows = rowsAt bytes address := by
  constructor
  · intro walk
    induction walk with
    | ended outside => exact (rows_at_outside bytes _ outside).symm
    | next stands walk ih => rw [rows_at_row bytes _ stands, ih]
  · rintro rfl
    exact walk_rows_at bytes address

-- A row that covers bytes to come ends the shorter listing, so that the rows behind it start in both at the
-- same address.
theorem row_of_longer (index address : Nat) (bytes more : List Byte) (row : Row)
    (listed : (rowsFrom address 0 bytes)[index]? = some row)
    (whole : ∀ earlier ∈ (rowsFrom address 0 bytes).take (index + 1), earlier.cutOff = false) :
    (rowsFrom address 0 (bytes ++ more))[index]? = some row := by
  induction index generalizing address bytes with
  | zero =>
      cases bytes with
      | nil => cases listed
      | cons byte following =>
          rw [rows_from_cons] at listed whole
          have same := row_at_append address byte following more (List.forall_mem_cons.mp whole).1
          rw [List.cons_append, rows_from_cons, same]
          exact listed
  | succ index ih =>
      cases bytes with
      | nil => cases listed
      | cons byte following =>
          rw [rows_from_cons] at listed whole
          obtain ⟨first, later⟩ := List.forall_mem_cons.mp whole
          have same := row_at_append address byte following more first
          rw [List.cons_append, rows_from_cons, same]
          rw [List.getElem?_cons_succ] at listed ⊢
          have covered : (rowAt address byte following).size ≤ (byte :: following).length := by
            refine Nat.le_of_not_lt fun beyond => ?_
            rw [List.drop_eq_nil_of_le (Nat.le_of_lt beyond)] at listed
            cases listed
          rw [← List.cons_append, List.drop_append_of_le_length covered]
          exact ih _ _ listed later

end Listing

end StoredProgram
