import StoredProgram.Fault
import StoredProgram.Flag
import StoredProgram.Opcode

set_option autoImplicit false

namespace StoredProgram

open Text

inductive Condition where
  | always
  | ifEqual
  | ifClear
deriving DecidableEq, Repr

namespace Condition

def opcode : Condition → Opcode
  | .always => .jmp
  | .ifEqual => .jeq
  | .ifClear => .jne

def holds : Condition → Flag → Bool
  | .always, _ => true
  | .ifEqual, flag => flag = .equal
  | .ifClear, flag => flag = .clear

end Condition

inductive Instruction where
  | load (register value : Byte)
  | compare
  | jump (condition : Condition) (register : Nat)
deriving DecidableEq, Repr

namespace Instruction

def opcode : Instruction → Opcode
  | .load .. => .ldi
  | .compare => .cmp
  | .jump condition _ => condition.opcode

def size (instruction : Instruction) : Nat :=
  instruction.opcode.size

def text (instruction : Instruction) : String :=
  match instruction with
  | .load register value =>
      instruction.opcode.mnemonic ++ " R[" ++ decimal register.toNat ++ "], " ++ decimal value.toNat
  | .compare => instruction.opcode.mnemonic
  | .jump _ register => instruction.opcode.mnemonic ++ " " ++ (Address.register register).text

-- Decodes the instruction at the head of some bytes, the first of which lies at `address`.
def decodeAt (address : Nat) : List Byte → Except Fault Instruction
  | [] => .error (.outOfBounds (.memory address))
  | byte :: operands =>
      match Opcode.ofByte? byte with
      | none => .error (.unknownOpcode byte (.memory address))
      | some .ldi =>
          match operands with
          | register :: value :: _ => .ok (.load register value)
          | [_] => .error (.outOfBounds (.memory (address + 2)))
          | [] => .error (.outOfBounds (.memory (address + 1)))
      | some .cmp => .ok .compare
      | some .jmp => .ok (.jump .always (address + 1))
      | some .jeq => .ok (.jump .ifEqual (address + 1))
      | some .jne => .ok (.jump .ifClear (address + 1))

def decode (bytes : List Byte) (address : Nat) : Except Fault Instruction :=
  decodeAt address (bytes.drop address)

theorem size_pos (instruction : Instruction) : 0 < instruction.size :=
  instruction.opcode.size_pos

end Instruction

end StoredProgram
