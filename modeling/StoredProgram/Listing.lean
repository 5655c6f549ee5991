import StoredProgram.Instruction
import StoredProgram.Text.Padding

set_option autoImplicit false

namespace StoredProgram

open Text

namespace Listing

inductive Row where
  | code (address : Nat) (instruction : Instruction)
  | data (address : Nat) (byte : Byte)
deriving DecidableEq, Repr

namespace Row

def address : Row → Nat
  | .code address _ => address
  | .data address _ => address

def size : Row → Nat
  | .code _ instruction => instruction.size
  | .data .. => 1

def text : Row → String
  | .code address instruction => padLeft 3 (decimal address) ++ ":  " ++ instruction.text
  | .data address byte => padLeft 3 (decimal address) ++ ":  .byte 0b" ++ binary 8 byte.toNat

theorem size_pos (row : Row) : 0 < row.size := by
  cases row with
  | code _ instruction => exact instruction.size_pos
  | data => exact Nat.one_pos

end Row

def rowAt (address : Nat) (byte : Byte) (following : List Byte) : Row :=
  match Instruction.decodeAt address (byte :: following) with
  | .ok instruction => .code address instruction
  | .error _ => .data address byte

-- The rows of some bytes from an address on, of which the row before covers the first `covered`.
def rowsFrom (address covered : Nat) : List Byte → List Row
  | [] => []
  | byte :: following =>
      match covered with
      | left + 1 => rowsFrom (address + 1) left following
      | 0 =>
          let row := rowAt address byte following
          row :: rowsFrom (address + 1) (row.size - 1) following

end Listing

def listing (image : List Byte) : List Listing.Row :=
  Listing.rowsFrom 0 0 image

namespace Listing

theorem rows_from_covered (address covered : Nat) (bytes : List Byte) :
    rowsFrom address covered bytes = rowsFrom (address + covered) 0 (bytes.drop covered) := by
  induction bytes generalizing address covered with
  | nil => simp [rowsFrom]
  | cons byte following ih =>
      cases covered with
      | zero => rfl
      | succ left => simp [rowsFrom, ih (address + 1) left, Nat.add_assoc, Nat.add_comm 1]

theorem rows_from_cons (address : Nat) (byte : Byte) (following : List Byte) :
    rowsFrom address 0 (byte :: following) =
      rowAt address byte following ::
        rowsFrom (address + (rowAt address byte following).size) 0
          ((byte :: following).drop (rowAt address byte following).size) := by
  have positive := (rowAt address byte following).size_pos
  obtain ⟨left, size⟩ := Nat.exists_eq_add_of_lt positive
  simp only [rowsFrom]
  rw [rows_from_covered]
  simp [size, Nat.add_assoc, Nat.add_comm 1]

end Listing

end StoredProgram
