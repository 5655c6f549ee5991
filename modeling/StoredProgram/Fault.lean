import StoredProgram.Address
import StoredProgram.Byte
import StoredProgram.Operation
import StoredProgram.Text.Numeral

set_option autoImplicit false

namespace StoredProgram

open Text

inductive Fault where
  | unknownOpcode (byte : Byte) (address : Address)
  | unsupportedOperation (operation : Operation)
  | outOfBounds (address : Address)
  | stepLimitReached (limit : Nat)
deriving DecidableEq, Repr

def Fault.message : Fault → String
  | .unknownOpcode byte address => "Unknown opcode 0b" ++ binary 8 byte.toNat ++ " at " ++ address.text
  | .unsupportedOperation operation => "Unsupported ALU operation: " ++ operation.name
  | .outOfBounds address => "Address out of bounds: " ++ address.text
  | .stepLimitReached limit => "Step limit of " ++ decimal limit ++ " instructions reached"

end StoredProgram
