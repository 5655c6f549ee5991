import StoredProgram.Fault
import StoredProgram.Program.LoadError

set_option autoImplicit false

namespace StoredProgram

def Memory.capacity : Nat := 100

structure Memory where
  cells : List Byte
  length_cells : cells.length = Memory.capacity
deriving DecidableEq, Repr

namespace Memory

def zeroed : Memory :=
  ⟨List.replicate capacity 0, List.length_replicate⟩

def read (memory : Memory) (index : Nat) : Except Fault Byte :=
  match memory.cells[index]? with
  | some byte => .ok byte
  | none => .error (.outOfBounds (.memory index))

def overlay (memory : Memory) (image : List Byte) (fits : image.length ≤ capacity) : Memory where
  cells := image ++ memory.cells.drop image.length
  length_cells := by
    rw [List.length_append, List.length_drop, memory.length_cells]
    omega

def load (memory : Memory) (image : List Byte) : Except LoadError Memory :=
  if fits : image.length ≤ capacity then
    .ok (memory.overlay image fits)
  else
    .error (.programTooLarge image.length capacity)

theorem read_eq_ok_iff (memory : Memory) (index : Nat) (byte : Byte) :
    memory.read index = .ok byte ↔ memory.cells[index]? = some byte := by
  rw [read]
  cases memory.cells[index]? <;> simp

theorem read_eq_error_iff (memory : Memory) (index : Nat) (fault : Fault) :
    memory.read index = .error fault ↔ capacity ≤ index ∧ fault = .outOfBounds (.memory index) := by
  rw [← memory.length_cells, ← List.getElem?_eq_none_iff, read]
  cases memory.cells[index]? <;> simp [eq_comm]

theorem load_eq_ok_iff (memory loaded : Memory) (image : List Byte) :
    memory.load image = .ok loaded ↔
      image.length ≤ capacity ∧ loaded.cells = image ++ memory.cells.drop image.length := by
  cases loaded
  by_cases fits : image.length ≤ capacity <;> simp [load, overlay, fits, eq_comm]

theorem load_eq_error_iff (memory : Memory) (image : List Byte) (error : LoadError) :
    memory.load image = .error error ↔
      capacity < image.length ∧ error = .programTooLarge image.length capacity := by
  by_cases fits : image.length ≤ capacity
  · simp [load, fits, Nat.not_lt.mpr fits]
  · simp [load, fits, Nat.not_le.mp fits, eq_comm]

end Memory

end StoredProgram
