import StoredProgram.Byte

set_option autoImplicit false

namespace StoredProgram

inductive Opcode where
  | ldi
  | cmp
  | jmp
  | jeq
  | jne
deriving DecidableEq, Repr

namespace Opcode

def all : List Opcode :=
  [.ldi, .cmp, .jmp, .jeq, .jne]

def mnemonic : Opcode → String
  | .ldi => "LDI"
  | .cmp => "CMP"
  | .jmp => "JMP"
  | .jeq => "JEQ"
  | .jne => "JNE"

def code : Opcode → Byte
  | .ldi => 0b10000010
  | .cmp => 0b10100111
  | .jmp => 0b01010100
  | .jeq => 0b01010101
  | .jne => 0b01010110

def size (opcode : Opcode) : Nat :=
  opcode.code.toNat / 64 + 1

def ofByte? (byte : Byte) : Option Opcode :=
  all.find? fun opcode => opcode.code = byte

def ofMnemonic? (mnemonic : String) : Option Opcode :=
  all.find? fun opcode => opcode.mnemonic = mnemonic

theorem of_byte_code (opcode : Opcode) : ofByte? opcode.code = some opcode := by
  cases opcode <;> rfl

theorem of_byte_eq_some_iff {byte : Byte} {opcode : Opcode} :
    ofByte? byte = some opcode ↔ byte = opcode.code := by
  constructor
  · intro found
    have holds := List.find?_some found
    simpa [eq_comm] using holds
  · rintro rfl
    exact of_byte_code opcode

theorem code_inj {first second : Opcode} : first.code = second.code ↔ first = second := by
  rw [← of_byte_eq_some_iff, of_byte_code, Option.some.injEq]

theorem of_mnemonic_mnemonic (opcode : Opcode) : ofMnemonic? opcode.mnemonic = some opcode := by
  cases opcode <;> decide

theorem mnemonic_inj {first second : Opcode} : first.mnemonic = second.mnemonic ↔ first = second := by
  constructor
  · intro same
    have found := of_mnemonic_mnemonic first
    rw [same, of_mnemonic_mnemonic] at found
    exact (Option.some.inj found).symm
  · rintro rfl
    rfl

theorem size_pos (opcode : Opcode) : 0 < opcode.size := by
  simp [size]

end Opcode

end StoredProgram
