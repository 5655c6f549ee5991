import StoredProgram.Byte

set_option autoImplicit false

namespace StoredProgram

inductive Flag where
  | clear
  | equal
  | greater
  | less
deriving DecidableEq, Repr

namespace Flag

def all : List Flag :=
  [.clear, .equal, .greater, .less]

def name : Flag → String
  | .clear => "None"
  | .equal => "Equal"
  | .greater => "GreaterThan"
  | .less => "LessThan"

def bits : Flag → Byte
  | .clear => 0b000
  | .equal => 0b001
  | .greater => 0b010
  | .less => 0b100

def ofBits? (bits : Byte) : Option Flag :=
  all.find? fun flag => flag.bits = bits

theorem of_bits_bits (flag : Flag) : ofBits? flag.bits = some flag := by
  cases flag <;> rfl

end Flag

end StoredProgram
