import StoredProgram.Proofs.Completion
import StoredProgram.Proofs.Loading
import StoredProgram.Proofs.Rows

set_option autoImplicit false

namespace StoredProgram

namespace Machine

open Attempt

open Listing

theorem straight_line_passes (count : Nat) (first final : Machine) (reached : step.Completes count first final)
    (straight : ∀ attempted ∈ first.attempts count, attempted.jumps = false) :
    ∃ passed, passed.length = count ∧
      rowsAt first.memory.cells first.pc = passed ++ rowsAt first.memory.cells final.pc := by
  -- The induction follows the steps: each of them passes the first row of the listing that is left.
  induction reached with
  | none machine => exact ⟨[], rfl, rfl⟩
  | @more count machine next final done rest ih =>
      rw [attempts_succ, done] at straight
      obtain ⟨untaken, onward⟩ := List.forall_mem_cons.mp straight
      have continued := (step_ok_iff machine next).mp done
      obtain ⟨passed, length, rows⟩ := ih onward
      rw [(successor_frame machine next continued).1] at rows
      obtain ⟨instruction, decoded, ⟨-, advanced⟩ | ⟨taken, -⟩⟩ := successor_moves machine next continued
      · refine ⟨.code machine.pc instruction :: passed, congrArg (· + 1) length, ?_⟩
        rw [rows_at_decoded _ _ instruction decoded, ← advanced, rows]
        rfl
      · rw [untaken] at taken
        cases taken

theorem straight_line_row (count index : Nat) (first final middle : Machine)
    (reached : step.Completes count first final)
    (straight : ∀ attempted ∈ first.attempts count, attempted.jumps = false) (within : index < count)
    (before : step.Completes index first middle) :
    ∃ instruction acted, Instruction.decode middle.memory.cells middle.pc = .ok instruction ∧
      middle.execute instruction = .ok acted ∧ step.run middle = .ok () acted.counted ∧
      (rowsAt first.memory.cells first.pc)[index]? = some (.code middle.pc instruction) := by
  obtain ⟨rest, rfl⟩ := Nat.exists_eq_add_of_lt within
  obtain ⟨other, early, late⟩ := (completes_add_iff index (rest + 1) first final).mp reached
  obtain rfl := completes_unique index first middle other before early
  obtain ⟨next, done, -⟩ := (completes_succ_iff rest middle final).mp late
  obtain ⟨instruction, acted, decoded, executed, rfl⟩ :=
    (successor_eq_ok_iff middle next).mp ((step_ok_iff middle next).mp done)
  refine ⟨instruction, acted, decoded, executed, done, ?_⟩
  obtain ⟨passed, rfl, rows⟩ := straight_line_passes index first middle before fun attempted member =>
    straight attempted (attempts_of_fewer _ index first attempted (Nat.le_of_lt within) member)
  rw [(completes_frame passed.length first middle before).1] at decoded
  rw [rows, rows_at_decoded _ _ instruction decoded, List.getElem?_append_right (Nat.le_refl _), Nat.sub_self]
  rfl

theorem straight_line_end (count : Nat) (first final : Machine) (reached : step.Completes count first final)
    (straight : ∀ attempted ∈ first.attempts count, attempted.jumps = false) :
    (∃ row, (rowsAt first.memory.cells first.pc)[count]? = some row ∧ row.address = final.pc) ∨
      ((rowsAt first.memory.cells first.pc).length = count ∧ Memory.capacity ≤ final.pc) := by
  obtain ⟨passed, rfl, rows⟩ := straight_line_passes count first final reached straight
  have length := first.memory.length_cells
  by_cases inside : final.pc < first.memory.cells.length
  · obtain ⟨row, place, -, left⟩ := rows_at_inside first.memory.cells final.pc inside
    refine .inl ⟨row, ?_, place⟩
    rw [rows, left, List.getElem?_append_right (Nat.le_refl _), Nat.sub_self]
    rfl
  · have outside := Nat.le_of_not_lt inside
    rw [rows, rows_at_outside _ _ outside, List.append_nil]
    exact .inr ⟨rfl, length ▸ outside⟩

theorem listing_predicts_straight_line (image : List Byte) (fits : image.length ≤ Memory.capacity) :
    ∃ first, withProgram image = .ok first ∧ ∀ count final, step.Completes count first final →
      (∀ attempted ∈ first.attempts count, attempted.jumps = false) →
      (∀ index middle, index < count → step.Completes index first middle →
        ∃ instruction acted, Instruction.decode middle.memory.cells middle.pc = .ok instruction ∧
          middle.execute instruction = .ok acted ∧ step.run middle = .ok () acted.counted ∧
          (listing first.memory.cells)[index]? = some (.code middle.pc instruction) ∧
          ∀ row, (listing image)[index]? = some row →
            (∀ earlier ∈ (listing image).take (index + 1), earlier.cutOff = false) →
            row = .code middle.pc instruction) ∧
      ((∃ row, (listing first.memory.cells)[count]? = some row ∧ row.address = final.pc) ∨
        ((listing first.memory.cells).length = count ∧ 100 ≤ final.pc)) ∧
      ∀ row, (listing image)[count]? = some row →
        (∀ earlier ∈ (listing image).take (count + 1), earlier.cutOff = false) → row.address = final.pc := by
  refine ⟨_, with_program_of_fits image fits, ?_⟩
  intro count final reached straight
  have shared (index : Nat) (row : Row) (listed : (listing image)[index]? = some row)
      (whole : ∀ earlier ∈ (listing image).take (index + 1), earlier.cutOff = false) :
      (listing (fresh.memory.overlay image fits).cells)[index]? = some row :=
    row_of_longer index 0 image _ row listed whole
  have ended := straight_line_end count _ final reached straight
  refine ⟨?_, ended, ?_⟩
  · intro index middle within before
    obtain ⟨instruction, acted, decoded, executed, done, row⟩ :=
      straight_line_row count index _ final middle reached straight within before
    refine ⟨instruction, acted, decoded, executed, done, row, ?_⟩
    intro bare listed whole
    have same := (shared index bare listed whole).symm.trans row
    exact Option.some.inj same
  · intro row listed whole
    have same := shared count row listed whole
    rcases ended with ⟨other, atCount, place⟩ | ⟨short, -⟩
    · obtain rfl := Option.some.inj (same.symm.trans atCount)
      exact place
    · have inside := (List.getElem?_eq_some_iff.mp same).1
      exact absurd short (Nat.ne_of_gt inside)

-- Two loads around a comparison, the second of which takes its value from beyond the image: memory has one
-- row for it, and the image has two rows of data.
theorem load_cut_off_by_the_image :
    ∃ first middle final, withProgram [0b10000010, 4, 1, 0b10100111, 0, 0, 0b10000010, 7] = .ok first ∧
      step.Completes 1 first middle ∧ step.Completes 3 first final ∧
      (∀ attempted ∈ first.attempts 3, attempted.jumps = false) ∧
      (listing [0b10000010, 4, 1, 0b10100111, 0, 0, 0b10000010, 7])[1]? = some (.code 3 .compare) ∧
      (listing [0b10000010, 4, 1, 0b10100111, 0, 0, 0b10000010, 7])[2]? = some (.data 6 Opcode.ldi.code) ∧
      Instruction.decode middle.memory.cells middle.pc = .ok .compare ∧
      (listing first.memory.cells)[1]? = some (.code middle.pc .compare) ∧
      ∃ row, (listing first.memory.cells)[3]? = some row ∧ row.address = final.pc := by
  obtain ⟨first, loaded, predicts⟩ :=
    listing_predicts_straight_line [0b10000010, 4, 1, 0b10100111, 0, 0, 0b10000010, 7] (by decide)
  obtain ⟨middle, final, before, reached, straight, near⟩ :
      ∃ middle final, step.Completes 1 first middle ∧ step.Completes 3 first final ∧
        (∀ attempted ∈ first.attempts 3, attempted.jumps = false) ∧ final.pc < 100 := by
    obtain rfl := Except.ok.inj loaded
    exact ⟨_, _, .more rfl (.none _), .more rfl (.more rfl (.more rfl (.none _))), by decide, by decide⟩
  obtain ⟨rows, ended, -⟩ := predicts 3 final reached straight
  obtain ⟨instruction, acted, decoded, -, -, row, bare⟩ := rows 1 middle (by decide) before
  have listed : (listing [0b10000010, 4, 1, 0b10100111, 0, 0, 0b10000010, 7])[1]? =
      some (.code 3 .compare) := rfl
  obtain ⟨-, rfl⟩ := Row.code.inj (bare _ listed (by decide))
  refine ⟨first, middle, final, loaded, before, reached, straight, listed, rfl, decoded, row, ?_⟩
  rcases ended with last | ⟨-, far⟩
  · exact last
  · omega

end Machine

end StoredProgram
