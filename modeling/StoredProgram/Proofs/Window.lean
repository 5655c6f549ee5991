import StoredProgram.Proofs.Decoding

set_option autoImplicit false

namespace StoredProgram

theorem Address.add_of_fits (address : Address) (distance : Nat) (fits : address.index + distance < wordCount) :
    address.add? distance = some (address.offset distance) :=
  if_pos fits

namespace Instruction

section InWords

def fetch (bytes : List Byte) (cell : Address) : ExceptT Fault Option Byte :=
  match bytes[cell.index]? with
  | some byte => return byte
  | none => throw (.outOfBounds cell)

def jumpAt (condition : Condition) (address : Nat) : ExceptT Fault Option Instruction := do
  let register ← (Address.register address).add? 1
  return .jump condition register.index

-- Decoding with every sum taken where it is needed; there is no result where one has more than 64 bits.
def decodeInWords (bytes : List Byte) (address : Nat) : ExceptT Fault Option Instruction := do
  let byte ← fetch bytes (.memory address)
  match Opcode.ofByte? byte with
  | none => throw (.unknownOpcode byte (.memory address))
  | some .ldi =>
      let register ← fetch bytes (← (Address.memory address).add? 1)
      let value ← fetch bytes (← (Address.memory address).add? 2)
      return .load register value
  | some .cmp => return .compare
  | some .jmp => jumpAt .always address
  | some .jeq => jumpAt .ifEqual address
  | some .jne => jumpAt .ifClear address

variable {bytes : List Byte} {address : Nat}

theorem fetch_of_held (cell : Address) (byte : Byte) (held : bytes[cell.index]? = some byte) :
    fetch bytes cell = pure byte := by
  rw [fetch, held]

theorem fetch_of_missing (cell : Address) (missing : bytes.length ≤ cell.index) :
    fetch bytes cell = throw (.outOfBounds cell) := by
  rw [fetch, List.getElem?_eq_none missing]

theorem jump_at_inside (condition : Condition) (inside : address + 1 < wordCount) :
    jumpAt condition address = pure (.jump condition (address + 1)) := by
  rw [jumpAt, Address.add_of_fits (.register address) 1 inside]
  rfl

theorem decode_in_words_load (inside : address + 2 < wordCount) (load : bytes[address]? = some Opcode.ldi.code) :
    decodeInWords bytes address = do
      let register ← fetch bytes (.memory (address + 1))
      let value ← fetch bytes (.memory (address + 2))
      return .load register value := by
  have next : address + 1 < wordCount := by omega
  rw [decodeInWords, fetch_of_held (.memory address) _ load, Address.add_of_fits (.memory address) 1 next,
    Address.add_of_fits (.memory address) 2 inside]
  rfl

theorem decode_in_words_jump (condition : Condition) (inside : address + 1 < wordCount)
    (jump : bytes[address]? = some condition.opcode.code) :
    decodeInWords bytes address = pure (.jump condition (address + 1)) := by
  rw [decodeInWords, fetch_of_held (.memory address) _ jump]
  cases condition <;> exact jump_at_inside _ inside

theorem decode_in_words (short : bytes.length < 0x8000000000000000) :
    decodeInWords bytes address = ExceptT.mk (some (decode bytes address)) := by
  -- A sum is taken only where the byte at the address was fetched, and so below the number of bytes.
  have sums (inside : address < bytes.length) : address + 2 < wordCount := by
    unfold wordCount
    omega
  cases decoded : decode bytes address with
  | ok instruction =>
      have inside := sums (decode_inside bytes address instruction decoded)
      have stands := (decode_eq_ok_iff bytes address instruction).mp decoded
      cases instruction with
      | load register value =>
          obtain ⟨load, first, second⟩ := stands
          rw [decode_in_words_load inside load, fetch_of_held (.memory (address + 1)) register first,
            fetch_of_held (.memory (address + 2)) value second]
          rfl
      | compare =>
          rw [decodeInWords, fetch_of_held (.memory address) _ stands]
          rfl
      | jump condition register =>
          obtain ⟨jump, rfl⟩ := stands
          exact decode_in_words_jump condition (Nat.lt_of_succ_lt inside) jump
  | error fault =>
      rcases (decode_eq_error_iff bytes address fault).mp decoded with
        ⟨outside, rfl⟩ | ⟨byte, held, unknown, rfl⟩ | ⟨load, cut, rfl⟩
      · rw [decodeInWords, fetch_of_missing (.memory address) outside]
        rfl
      · rw [decodeInWords, fetch_of_held (.memory address) byte held, pure_bind, unknown]
        rfl
      · have present : address < bytes.length := (List.getElem?_eq_some_iff.mp load).1
        rw [decode_in_words_load (sums present) load]
        by_cases last : bytes.length = address + 1
        · rw [fetch_of_missing (.memory (address + 1)) (Nat.le_of_eq last), last]
          rfl
        · have ended : bytes.length = address + 2 := by omega
          obtain ⟨register, first⟩ : ∃ register, bytes[address + 1]? = some register :=
            ⟨_, List.getElem?_eq_getElem (by omega)⟩
          rw [fetch_of_held (.memory (address + 1)) register first,
            fetch_of_missing (.memory (address + 2)) (Nat.le_of_eq ended), ended]
          rfl

end InWords

section Cells

def neededCells (bytes : List Byte) (address : Nat) : List Nat :=
  if bytes[address]? = some Opcode.ldi.code then [address, address + 1, address + 2] else [address]

theorem out_of_bounds_iff (bytes : List Byte) (address : Nat) (cell : Address) :
    decode bytes address = .error (.outOfBounds cell) ↔
      (bytes.length ≤ address ∨ bytes[address]? = some Opcode.ldi.code ∧ bytes.length ≤ address + 2) ∧
        cell = .memory (max address bytes.length) := by
  rw [decode_eq_error_iff]
  constructor
  · rintro (⟨outside, report⟩ | ⟨byte, held, unknown, report⟩ | ⟨load, cut, report⟩)
    · rw [Nat.max_eq_left outside]
      exact ⟨.inl outside, Fault.outOfBounds.inj report⟩
    · cases report
    · have present := (List.getElem?_eq_some_iff.mp load).1
      rw [Nat.max_eq_right (Nat.le_of_lt present)]
      exact ⟨.inr ⟨load, cut⟩, Fault.outOfBounds.inj report⟩
  · rintro ⟨outside | ⟨load, cut⟩, rfl⟩
    · rw [Nat.max_eq_left outside]
      exact .inl ⟨outside, rfl⟩
    · have present := (List.getElem?_eq_some_iff.mp load).1
      rw [Nat.max_eq_right (Nat.le_of_lt present)]
      exact .inr (.inr ⟨load, cut, rfl⟩)

theorem unknown_opcode_iff (bytes : List Byte) (address : Nat) (byte : Byte) (cell : Address) :
    decode bytes address = .error (.unknownOpcode byte cell) ↔
      bytes[address]? = some byte ∧ (∀ opcode : Opcode, byte ≠ opcode.code) ∧ cell = .memory address := by
  have foreign : Opcode.ofByte? byte = none ↔ ∀ opcode : Opcode, byte ≠ opcode.code := by
    simp only [Option.eq_none_iff_forall_ne_some, ne_eq, Opcode.of_byte_eq_some_iff]
  rw [decode_eq_error_iff, ← foreign]
  constructor
  · rintro (⟨-, report⟩ | ⟨other, held, unknown, report⟩ | ⟨-, -, report⟩)
    · cases report
    · obtain ⟨rfl, rfl⟩ := Fault.unknownOpcode.inj report
      exact ⟨held, unknown, rfl⟩
    · cases report
  · rintro ⟨held, unknown, rfl⟩
    exact .inr (.inl ⟨byte, held, unknown, rfl⟩)

theorem first_missing_cell (bytes : List Byte) (address : Nat)
    (missing : bytes.length ≤ address ∨ bytes[address]? = some Opcode.ldi.code ∧ bytes.length ≤ address + 2) :
    (neededCells bytes address).find? (bytes.length ≤ ·) = some (max address bytes.length) := by
  rcases missing with outside | ⟨load, cut⟩
  · rw [Nat.max_eq_left outside, neededCells]
    split <;> simp [outside]
  · have present := (List.getElem?_eq_some_iff.mp load).1
    rw [neededCells, if_pos load, Nat.max_eq_right (Nat.le_of_lt present)]
    by_cases last : bytes.length = address + 1
    · simp [last]
    · have ended : bytes.length = address + 2 := by omega
      simp [ended]

def AgreeInWindow (address : Nat) (first second : List Byte) : Prop :=
  ∀ cell, address ≤ cell → cell ≤ address + 2 → cell < first.length → cell < second.length →
    first[cell]? = second[cell]?

theorem AgreeInWindow.byte_eq {address : Nat} {first second : List Byte} (agree : AgreeInWindow address first second)
    (distance : Nat) (near : distance ≤ 2) (byte another : Byte) (held : first[address + distance]? = some byte)
    (heldToo : second[address + distance]? = some another) : byte = another := by
  have same := agree (address + distance) (Nat.le_add_right _ _) (Nat.add_le_add_left near _)
    (List.getElem?_eq_some_iff.mp held).1 (List.getElem?_eq_some_iff.mp heldToo).1
  rw [held, heldToo] at same
  exact Option.some.inj same

theorem decode_in_window {address : Nat} {first second : List Byte} (agree : AgreeInWindow address first second)
    (instruction another : Instruction) (decoded : decode first address = .ok instruction)
    (decodedToo : decode second address = .ok another) : instruction = another := by
  have same : instruction.opcode = another.opcode := by
    rw [← Opcode.code_inj]
    exact agree.byte_eq 0 (by decide) _ _ (decode_opcode first address instruction decoded)
      (decode_opcode second address another decodedToo)
  have stands := (decode_eq_ok_iff first address instruction).mp decoded
  have standsToo := (decode_eq_ok_iff second address another).mp decodedToo
  cases instruction with
  | load register value =>
      cases another with
      | load registerToo valueToo =>
          rw [agree.byte_eq 1 (by decide) _ _ stands.2.1 standsToo.2.1,
            agree.byte_eq 2 (by decide) _ _ stands.2.2 standsToo.2.2]
      | compare => cases same
      | jump condition => cases condition <;> cases same
  | compare =>
      cases another with
      | load => cases same
      | compare => rfl
      | jump condition => cases condition <;> cases same
  | jump condition register =>
      cases another with
      | load => cases condition <;> cases same
      | compare => cases condition <;> cases same
      | jump conditionToo registerToo =>
          rw [stands.2, standsToo.2]
          cases condition <;> cases conditionToo <;> cases same <;> rfl

end Cells

theorem decoding_stays_in_window (bytes : List Byte) (address : Nat) (short : bytes.length < 0x8000000000000000) :
    (decodeInWords bytes address).run = some (decode bytes address) ∧
    ((∃ cell, decode bytes address = .error (.outOfBounds cell)) ↔
      bytes.length ≤ address ∨ bytes[address]? = some Opcode.ldi.code ∧ bytes.length ≤ address + 2) ∧
    (∀ cell, decode bytes address = .error (.outOfBounds cell) →
      cell = .memory (max address bytes.length) ∧
      (neededCells bytes address).find? (bytes.length ≤ ·) = some (max address bytes.length)) ∧
    (∀ byte cell, decode bytes address = .error (.unknownOpcode byte cell) ↔
      bytes[address]? = some byte ∧ (∀ opcode : Opcode, byte ≠ opcode.code) ∧ cell = .memory address) ∧
    (∀ fault, decode bytes address = .error fault →
      (∃ cell, fault = .outOfBounds cell) ∨ ∃ byte cell, fault = .unknownOpcode byte cell) ∧
    ∀ others instruction another, AgreeInWindow address bytes others →
      decode bytes address = .ok instruction → decode others address = .ok another → instruction = another := by
  refine ⟨congrArg ExceptT.run (decode_in_words short), ?_, ?_, unknown_opcode_iff bytes address, ?_, ?_⟩
  · simp only [out_of_bounds_iff, exists_and_left, exists_eq, and_true]
  · intro cell failed
    obtain ⟨missing, report⟩ := (out_of_bounds_iff bytes address cell).mp failed
    exact ⟨report, first_missing_cell bytes address missing⟩
  · intro fault failed
    rcases (decode_eq_error_iff bytes address fault).mp failed with
      ⟨-, rfl⟩ | ⟨byte, -, -, rfl⟩ | ⟨-, -, rfl⟩
    · exact .inl ⟨_, rfl⟩
    · exact .inr ⟨byte, _, rfl⟩
    · exact .inl ⟨_, rfl⟩
  · intro others instruction another agree
    exact decode_in_window agree instruction another

theorem load_at_the_end_is_cut_off :
    (decodeInWords [0x54, 0x82, 7] 1).run = some (.error (.outOfBounds (.memory 3))) ∧
      (neededCells [0x54, 0x82, 7] 1).find? (3 ≤ ·) = some 3 ∧
      (decodeInWords [0x54, 0x82, 7] (wordCount - 1)).run = some (.error (.outOfBounds (.memory (wordCount - 1)))) ∧
      decode [0x54, 0x82, 7] 2 = .error (.unknownOpcode 7 (.memory 2)) ∧
      AgreeInWindow 1 [0x54, 0x82, 7, 200] [0x82, 0x82, 7, 200, 9] ∧
      decode [0x54, 0x82, 7, 200] 1 = .ok (.load 7 200) ∧
      ∀ another, decode [0x82, 0x82, 7, 200, 9] 1 = .ok another → another = .load 7 200 := by
  have short : [0x54, 0x82, 7].length < 0x8000000000000000 := by decide
  obtain ⟨words, failing, first, -, -, -⟩ := decoding_stays_in_window [0x54, 0x82, 7] 1 short
  obtain ⟨wordsToo, failingToo, highest, -, -, -⟩ :=
    decoding_stays_in_window [0x54, 0x82, 7] (wordCount - 1) short
  obtain ⟨-, -, -, unknown, -, -⟩ := decoding_stays_in_window [0x54, 0x82, 7] 2 short
  obtain ⟨-, -, -, -, -, inWindow⟩ := decoding_stays_in_window [0x54, 0x82, 7, 200] 1 (by decide)
  obtain ⟨cell, failed⟩ := failing.mpr (.inr ⟨rfl, by decide⟩)
  obtain ⟨other, failedToo⟩ := failingToo.mpr (.inl (by decide))
  obtain ⟨rfl, missing⟩ := first cell failed
  obtain ⟨rfl, -⟩ := highest other failedToo
  have agree : AgreeInWindow 1 [0x54, 0x82, 7, 200] [0x82, 0x82, 7, 200, 9] := by
    intro cell above near _ _
    obtain rfl | rfl | rfl : cell = 1 ∨ cell = 2 ∨ cell = 3 := by omega
    all_goals rfl
  have decoded : decode [0x54, 0x82, 7, 200] 1 = .ok (.load 7 200) := rfl
  have foreign (opcode : Opcode) : 7 ≠ opcode.code := by cases opcode <;> decide
  refine ⟨words.trans (congrArg some failed), missing, wordsToo.trans (congrArg some failedToo),
    (unknown 7 (.memory 2)).mpr ⟨rfl, foreign, rfl⟩, agree, decoded, ?_⟩
  intro another decodedToo
  exact (inWindow _ _ another agree decoded decodedToo).symm

end Instruction

end StoredProgram
