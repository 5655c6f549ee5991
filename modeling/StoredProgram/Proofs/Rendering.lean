import StoredProgram.Proofs.Tiling
import StoredProgram.Text.Occurrence

set_option autoImplicit false

namespace StoredProgram

open Text

theorem Opcode.length_mnemonic (opcode : Opcode) : opcode.mnemonic.toList.length = 3 := by
  cases opcode <;> rfl

theorem Condition.opcode_inj {first second : Condition} : first.opcode = second.opcode ↔ first = second := by
  cases first <;> cases second <;> decide

theorem Byte.decimal_inj {first second : Byte} : decimal first.toNat = decimal second.toNat ↔ first = second := by
  rw [Text.decimal_inj, UInt8.toNat_inj]

namespace Instruction

def operands : Instruction → String
  | .load register value => " R[" ++ (decimal register.toNat ++ ("], " ++ decimal value.toNat))
  | .compare => ""
  | .jump _ register => " " ++ (Address.register register).text

theorem text_eq (instruction : Instruction) :
    instruction.text = instruction.opcode.mnemonic ++ instruction.operands := by
  cases instruction <;> simp [text, operands, String.append_assoc]

-- The bracket behind the register shows where the number of the register ends.
theorem load_operands_inj {register value registerToo valueToo : Byte}
    (same : (load register value).operands = (load registerToo valueToo).operands) :
    register = registerToo ∧ value = valueToo := by
  have chars := congrArg String.toList ((String.append_right_inj " R[").mp same)
  simp only [String.toList_append] at chars
  have free (number : Nat) : ']' ∉ (decimal number).toList := Text.not_mem_decimal number ']' (by decide)
  obtain ⟨registers, values⟩ := (Text.marked_inj (free _) (free _)).mp chars
  have values : decimal value.toNat = decimal valueToo.toNat :=
    String.toList_inj.mp ((List.append_right_inj [',', ' ']).mp values)
  exact ⟨Byte.decimal_inj.mp (String.toList_inj.mp registers), Byte.decimal_inj.mp values⟩

theorem text_inj {first second : Instruction} : first.text = second.text ↔ first = second := by
  constructor
  · intro same
    rw [text_eq, text_eq] at same
    have chars := congrArg String.toList same
    rw [String.toList_append, String.toList_append] at chars
    obtain ⟨mnemonics, operands⟩ := List.append_inj chars (by rw [Opcode.length_mnemonic, Opcode.length_mnemonic])
    have opcodes := Opcode.mnemonic_inj.mp (String.toList_inj.mp mnemonics)
    have operands := String.toList_inj.mp operands
    cases first with
    | load register value =>
        cases second with
        | load registerToo valueToo =>
            obtain ⟨registers, values⟩ := load_operands_inj operands
            rw [registers, values]
        | compare => cases opcodes
        | jump condition => cases condition <;> cases opcodes
    | compare =>
        cases second with
        | load => cases opcodes
        | compare => rfl
        | jump condition => cases condition <;> cases opcodes
    | jump condition register =>
        cases second with
        | load => cases condition <;> cases opcodes
        | compare => cases condition <;> cases opcodes
        | jump another registerToo =>
            have registers := Address.text_inj.mp ((String.append_right_inj " ").mp operands)
            rw [Condition.opcode_inj.mp opcodes, Address.register.inj registers]
  · rintro rfl
    rfl

end Instruction

namespace Listing

namespace Row

def body : Row → String
  | .code _ instruction => instruction.text
  | .data _ byte => ".byte 0b" ++ binary 8 byte.toNat

theorem to_list_text (row : Row) :
    row.text.toList = (padLeft 3 (decimal row.address)).toList ++ ':' :: ([' ', ' '] ++ row.body.toList) := by
  cases row with
  | code address instruction => simp [text, body, Row.address]
  | data address byte => simp [text, body, Row.address]

theorem text_ne_byte (instruction : Instruction) (byte : Byte) :
    instruction.text ≠ ".byte 0b" ++ binary 8 byte.toNat := by
  intro same
  have chars := congrArg String.toList same
  rw [instruction.text_eq, String.toList_append, String.toList_append] at chars
  have heads := congrArg List.head? chars
  cases coded : instruction.opcode <;> simp [coded, Opcode.mnemonic] at heads

theorem body_inj {first second : Row} (same : first.address = second.address) (bodies : first.body = second.body) :
    first = second := by
  cases first with
  | code address instruction =>
      cases second with
      | code place another =>
          obtain rfl : address = place := same
          rw [Instruction.text_inj.mp bodies]
      | data place byte => exact absurd bodies (text_ne_byte instruction byte)
  | data address byte =>
      cases second with
      | code place instruction => exact absurd bodies.symm (text_ne_byte instruction byte)
      | data place another =>
          obtain rfl : address = place := same
          have digits := (String.append_right_inj _).mp bodies
          have bytes := (binary_inj byte.toNat_lt another.toNat_lt).mp digits
          rw [UInt8.toNat_inj.mp bytes]

theorem text_inj {first second : Row} (same : first.text = second.text) : first = second := by
  have chars := congrArg String.toList same
  rw [to_list_text, to_list_text] at chars
  have free (number : Nat) : ':' ∉ (padLeft 3 (decimal number)).toList := by
    rw [to_list_pad_left, List.mem_append, not_or]
    exact ⟨fun blank => absurd (List.eq_of_mem_replicate blank) (by decide),
      Text.not_mem_decimal number ':' (by decide)⟩
  have solid (number : Nat) : (decimal number).toList.head? ≠ some ' ' := fun head =>
    Text.not_mem_decimal number ' ' (by decide) (List.mem_of_head? head)
  obtain ⟨addresses, bodies⟩ := (Text.marked_inj (free _) (free _)).mp chars
  have addresses := (pad_left_inj (solid _) (solid _)).mp (String.toList_inj.mp addresses)
  have bodies := String.toList_inj.mp ((List.append_right_inj [' ', ' ']).mp bodies)
  exact body_inj (decimal_inj.mp addresses) bodies

-- Among images of one length, a row stands wherever the cells that it tells are the same.
theorem StandsIn.stands_iff {first second : List Byte} {row : Row} (stands : row.StandsIn first)
    (same : first.length = second.length) :
    row.StandsIn second ↔ ∀ index ∈ row.shown, second[index]? = first[index]? := by
  cases row with
  | data address byte =>
      obtain ⟨held, fault, failed⟩ := stands
      have unread := (Instruction.decode_fails_iff first address byte held).mp ⟨fault, failed⟩
      rw [same] at unread
      rw [shown, List.forall_mem_singleton, held]
      constructor
      · intro standsToo
        exact standsToo.1
      · intro agree
        exact ⟨agree, (Instruction.decode_fails_iff second address byte agree).mpr unread⟩
  | code address instruction =>
      have placed := (Instruction.decode_eq_ok_iff first address instruction).mp stands
      rw [StandsIn, Instruction.decode_eq_ok_iff]
      cases instruction with
      | load register value =>
          obtain ⟨opcode, operand, immediate⟩ := placed
          rw [shown, List.forall_mem_cons, List.forall_mem_cons, List.forall_mem_singleton, opcode, operand, immediate]
          rfl
      | compare =>
          have opcode : first[address]? = some Opcode.cmp.code := placed
          rw [shown, List.forall_mem_singleton, opcode]
          rfl
      | jump condition register =>
          obtain ⟨opcode, number⟩ := placed
          rw [shown, List.forall_mem_singleton, opcode]
          exact ⟨fun stands => stands.1, fun agree => ⟨agree, number⟩⟩

end Row

theorem Walk.walk_iff_agree {first second : List Byte} {start : Nat} {rows : List Row} (walk : Walk first start rows)
    (same : first.length = second.length) :
    Walk second start rows ↔
      ∀ index, start ≤ index → (∀ row ∈ rows, index ∉ row.skipped) → second[index]? = first[index]? := by
  induction walk with
  | ended outside =>
      refine ⟨fun _ index above _ => ?_, fun _ => .ended (same ▸ outside)⟩
      have beyond := Nat.le_trans outside above
      rw [List.getElem?_eq_none beyond, List.getElem?_eq_none (same ▸ beyond)]
  | @next row rows stands walk ih =>
      rw [walk_cons_iff, eq_self, true_and, stands.stands_iff same, ih]
      constructor
      · rintro ⟨here, onward⟩ index above unskipped
        obtain ⟨unskippedHere, unskippedOnward⟩ := List.forall_mem_cons.mp unskipped
        by_cases within : index < row.address + row.size
        · rcases (row.covers_iff index).mp ⟨above, within⟩ with shown | skipped
          · exact here index shown
          · exact absurd skipped unskippedHere
        · exact onward index (Nat.le_of_not_lt within) unskippedOnward
      · intro agree
        refine ⟨fun index shown => ?_, fun index above unskipped => ?_⟩
        · have covered := (row.covers_iff index).mpr (.inl shown)
          refine agree index covered.1 (List.forall_mem_cons.mpr ⟨row.not_skipped_of_shown index shown, ?_⟩)
          intro later member skipped
          have low := walk.above later member
          have behind := ((later.covers_iff index).mpr (.inr skipped)).1
          exact absurd covered.2 (Nat.not_lt.mpr (Nat.le_trans low behind))
        · refine agree index (Nat.le_trans (Nat.le_add_right _ _) above) (List.forall_mem_cons.mpr ⟨?_, unskipped⟩)
          intro skipped
          have ends := ((row.covers_iff index).mpr (.inr skipped)).2
          exact absurd ends (Nat.not_lt.mpr above)

theorem listing_texts_agree_iff (first second : List Byte) (same : first.length = second.length) :
    (listing first).map Row.text = (listing second).map Row.text ↔
      ∀ index, (∀ row ∈ listing first, index ∉ row.skipped) → first[index]? = second[index]? := by
  have walk : Walk first 0 (listing first) := walk_rows_at first 0
  have agreement := walk.walk_iff_agree same
  rw [walk_iff] at agreement
  rw [List.map_inj_right fun _ _ => Row.text_inj]
  constructor
  · intro rows index unskipped
    exact (agreement.mp rows index (Nat.zero_le _) unskipped).symm
  · intro agree
    exact agreement.mpr fun index _ unskipped => (agree index unskipped).symm

theorem skipped_operands_are_not_printed :
    (listing [0b10100111, 1, 2, 0b01010100, 9]).map Row.text =
        (listing [0b10100111, 7, 7, 0b01010100, 3]).map Row.text ∧
      (listing [0b10000010, 1, 8]).map Row.text ≠ (listing [0b10000010, 1, 9]).map Row.text := by
  constructor
  · apply (listing_texts_agree_iff _ _ rfl).mpr
    intro index unskipped
    have compared : index ∉ [1, 2] := unskipped (.code 0 .compare) (by decide)
    have jumped : index ∉ [4] := unskipped (.code 3 (.jump .always 4)) (by decide)
    match index with
    | 0 | 3 | _ + 5 => rfl
    | 1 | 2 => exact absurd (by decide) compared
    | 4 => exact absurd (by decide) jumped
  · intro same
    have agree := (listing_texts_agree_iff [0b10000010, 1, 8] [0b10000010, 1, 9] rfl).mp same 2 (by decide)
    cases agree

end Listing

end StoredProgram
