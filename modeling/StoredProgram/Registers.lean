import StoredProgram.Fault

set_option autoImplicit false

namespace StoredProgram

def Registers.count : Nat := 8

structure Registers where
  cells : List Byte
  length_cells : cells.length = Registers.count
deriving DecidableEq, Repr

namespace Registers

-- The register that is kept for a stack pointer. No instruction treats it apart.
def stackPointer : Nat := 7

def zeroed : Registers :=
  ⟨List.replicate count 0, List.length_replicate⟩

def content (registers : Registers) (index : Nat) : Byte :=
  registers.cells.getD index 0

def get (registers : Registers) (index : Nat) : Except Fault Byte :=
  match registers.cells[index]? with
  | some byte => .ok byte
  | none => .error (.outOfBounds (.register index))

def replace (registers : Registers) (index : Nat) (value : Byte) : Registers where
  cells := registers.cells.set index value
  length_cells := by rw [List.length_set, registers.length_cells]

def set (registers : Registers) (index : Nat) (value : Byte) : Except Fault Registers :=
  if index < count then
    .ok (registers.replace index value)
  else
    .error (.outOfBounds (.register index))

theorem get_of_lt (registers : Registers) (index : Nat) (inside : index < count) :
    registers.get index = .ok (registers.content index) := by
  have bound : index < registers.cells.length := by rw [registers.length_cells]; exact inside
  simp [get, content, bound]

theorem get_of_le (registers : Registers) (index : Nat) (outside : count ≤ index) :
    registers.get index = .error (.outOfBounds (.register index)) := by
  have bound : registers.cells.length ≤ index := by rw [registers.length_cells]; exact outside
  simp [get, bound]

end Registers

end StoredProgram
