import StoredProgram.Instruction

set_option autoImplicit false

namespace StoredProgram

namespace Opcode

theorem size_bounds (opcode : Opcode) : 2 ≤ opcode.size ∧ opcode.size ≤ 3 := by
  cases opcode <;> decide

theorem ldi_size : ldi.size = 3 := by decide

theorem cmp_size : cmp.size = 3 := by decide

end Opcode

theorem Condition.opcode_size (condition : Condition) : condition.opcode.size = 2 := by
  cases condition <;> decide

namespace Instruction

theorem size_bounds (instruction : Instruction) : 2 ≤ instruction.size ∧ instruction.size ≤ 3 :=
  instruction.opcode.size_bounds

def StandsAt (bytes : List Byte) (address : Nat) : Instruction → Prop
  | .load register value =>
      bytes[address]? = some Opcode.ldi.code ∧ bytes[address + 1]? = some register ∧
        bytes[address + 2]? = some value
  | .compare => bytes[address]? = some Opcode.cmp.code
  | .jump condition register => bytes[address]? = some condition.opcode.code ∧ register = address + 1

theorem decode_eq_ok_iff (bytes : List Byte) (address : Nat) (instruction : Instruction) :
    decode bytes address = .ok instruction ↔ instruction.StandsAt bytes address := by
  have first : bytes[address]? = (bytes.drop address)[0]? := by simp
  have second : bytes[address + 1]? = (bytes.drop address)[1]? := by simp
  have third : bytes[address + 2]? = (bytes.drop address)[2]? := by simp
  simp only [decode, StandsAt.eq_def, first, second, third]
  cases bytes.drop address with
  | nil => cases instruction <;> simp [decodeAt]
  | cons byte operands =>
      cases coded : Opcode.ofByte? byte with
      | none =>
          have other (opcode : Opcode) : byte ≠ opcode.code := by
            rintro rfl
            rw [Opcode.of_byte_code] at coded
            cases coded
          cases instruction <;> simp [decodeAt, coded, other]
      | some opcode =>
          obtain rfl := Opcode.of_byte_eq_some_iff.mp coded
          cases opcode with
          | ldi =>
              rcases operands with _ | ⟨register, _ | ⟨value, following⟩⟩ <;>
                rcases instruction with _ | _ | ⟨_ | _ | _, _⟩ <;>
                  simp [decodeAt, coded, Opcode.code_inj, Condition.opcode]
          | cmp | jmp | jeq | jne =>
              rcases instruction with _ | _ | ⟨_ | _ | _, _⟩ <;>
                simp [decodeAt, coded, Opcode.code_inj, Condition.opcode, eq_comm]

theorem decode_eq_error_iff (bytes : List Byte) (address : Nat) (fault : Fault) :
    decode bytes address = .error fault ↔
      (bytes.length ≤ address ∧ fault = .outOfBounds (.memory address)) ∨
      (∃ byte, bytes[address]? = some byte ∧ Opcode.ofByte? byte = none ∧
        fault = .unknownOpcode byte (.memory address)) ∨
      (bytes[address]? = some Opcode.ldi.code ∧ bytes.length ≤ address + 2 ∧
        fault = .outOfBounds (.memory bytes.length)) := by
  have head : bytes[address]? = (bytes.drop address)[0]? := by simp
  have length : (bytes.drop address).length = bytes.length - address := List.length_drop
  rw [decode, head]
  cases rest : bytes.drop address with
  | nil =>
      have outside := List.drop_eq_nil_iff.mp rest
      simp [decodeAt, outside, eq_comm]
  | cons byte operands =>
      rw [rest, List.length_cons] at length
      have inside : ¬ bytes.length ≤ address := by omega
      cases coded : Opcode.ofByte? byte with
      | none =>
          have other : byte ≠ Opcode.ldi.code := by
            rintro rfl
            cases coded
          simp [decodeAt, coded, inside, other, eq_comm]
      | some opcode =>
          obtain rfl := Opcode.of_byte_eq_some_iff.mp coded
          cases opcode with
          | ldi =>
              rcases operands with _ | ⟨register, _ | ⟨value, following⟩⟩
              · have last : bytes.length = address + 1 := by simp at length; omega
                rw [last] at inside ⊢
                simp [decodeAt, coded, inside, @eq_comm _ fault]
              · have last : bytes.length = address + 2 := by simp at length; omega
                rw [last] at inside ⊢
                simp [decodeAt, coded, inside, @eq_comm _ fault]
              · have enough : ¬ bytes.length ≤ address + 2 := by simp at length; omega
                simp [decodeAt, coded, inside, enough]
          | cmp | jmp | jeq | jne => simp [decodeAt, coded, inside, Opcode.code_inj]

theorem decode_fails_iff (bytes : List Byte) (address : Nat) (byte : Byte) (held : bytes[address]? = some byte) :
    (∃ fault, decode bytes address = .error fault) ↔
      Opcode.ofByte? byte = none ∨ byte = Opcode.ldi.code ∧ bytes.length ≤ address + 2 := by
  constructor
  · rintro ⟨fault, failed⟩
    rcases (decode_eq_error_iff _ _ _).mp failed with ⟨outside, -⟩ | ⟨other, found, unknown, -⟩ | ⟨load, short, -⟩
    · exact absurd (List.getElem?_eq_some_iff.mp held).1 (Nat.not_lt.mpr outside)
    · obtain rfl := Option.some.inj (held.symm.trans found)
      exact .inl unknown
    · exact .inr ⟨Option.some.inj (held.symm.trans load), short⟩
  · rintro (unknown | ⟨rfl, short⟩)
    · exact ⟨_, (decode_eq_error_iff _ _ _).mpr (.inr (.inl ⟨byte, held, unknown, rfl⟩))⟩
    · exact ⟨_, (decode_eq_error_iff _ _ _).mpr (.inr (.inr ⟨held, short, rfl⟩))⟩

theorem decode_opcode (bytes : List Byte) (address : Nat) (instruction : Instruction)
    (decoded : decode bytes address = .ok instruction) : bytes[address]? = some instruction.opcode.code := by
  have stands := (decode_eq_ok_iff bytes address instruction).mp decoded
  cases instruction with
  | load => exact stands.1
  | compare => exact stands
  | jump => exact stands.1

theorem decode_inside (bytes : List Byte) (address : Nat) (instruction : Instruction)
    (decoded : decode bytes address = .ok instruction) : address < bytes.length :=
  (List.getElem?_eq_some_iff.mp (decode_opcode bytes address instruction decoded)).1

theorem decode_jump (bytes : List Byte) (address register : Nat) (condition : Condition)
    (decoded : decode bytes address = .ok (.jump condition register)) : register = address + 1 :=
  ((decode_eq_ok_iff bytes address _).mp decoded).2

end Instruction

end StoredProgram
