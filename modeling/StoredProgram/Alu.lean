import StoredProgram.Fault
import StoredProgram.Flag

set_option autoImplicit false

namespace StoredProgram.Alu

def compare (first second : Byte) : Flag :=
  if first = second then .equal else if first < second then .less else .clear

def run : Operation → Byte → Byte → Except Fault Flag
  | .cmp, first, second => .ok (compare first second)
  | operation, _, _ => .error (.unsupportedOperation operation)

theorem compare_ne_greater (first second : Byte) : compare first second ≠ .greater := by
  unfold compare
  split
  · simp
  · split <;> simp

end StoredProgram.Alu
