import StoredProgram.Machine.Basic
import StoredProgram.Session

set_option autoImplicit false

namespace StoredProgram

theorem Memory.overlay_zeroed (image : List Byte) (fits : image.length ≤ capacity) :
    (zeroed.overlay image fits).cells = image ++ List.replicate (capacity - image.length) 0 := by
  simp [overlay, zeroed]

namespace Machine

open Attempt

theorem fresh_content (register : Nat) : fresh.registers.content register = 0 := by
  by_cases inside : register < Registers.count
  · simp [fresh, Registers.zeroed, Registers.content, inside]
  · simp [fresh, Registers.zeroed, Registers.content, Nat.not_lt.mp inside]

theorem run_load (machine : Machine) (image : List Byte) :
    (load image).run machine =
      settled machine ((machine.memory.load image).map fun memory => { machine with memory }) := by
  cases loaded : machine.memory.load image <;> simp [load, loaded, settled, Except.map]

theorem run_load_oversized (machine : Machine) (image : List Byte)
    (oversized : Memory.capacity < image.length) :
    (load image).run machine = .error (.programTooLarge image.length Memory.capacity) machine := by
  have refused := (machine.memory.load_eq_error_iff image _).mpr ⟨oversized, rfl⟩
  rw [run_load, refused]
  rfl

theorem run_load_text (machine : Machine) (text : String) :
    (loadText text).run machine =
      match Program.parse text with
      | .ok image => (load image).run machine
      | .error error => .error error machine := by
  cases parsed : Program.parse text <;> simp [loadText, parsed]

theorem report_of_load (machine : Machine) (image : List Byte) :
    (∃ memory, machine.memory.load image = .ok memory ∧
      Report.ofLoad machine (load image) = ⟨{ machine with memory }, none⟩) ∨
    ∃ error, Report.ofLoad machine (load image) = ⟨machine, some (.unloadable error)⟩ := by
  rw [Report.ofLoad, run_load]
  cases machine.memory.load image with
  | ok memory => exact .inl ⟨memory, rfl, rfl⟩
  | error error => exact .inr ⟨error, rfl⟩

theorem report_of_fitting (machine : Machine) (image : List Byte) (fits : image.length ≤ Memory.capacity) :
    Report.ofLoad machine (load image) =
      ⟨{ machine with memory := machine.memory.overlay image fits }, none⟩ := by
  rw [Report.ofLoad, run_load, Memory.load, dif_pos fits]
  rfl

theorem report_of_oversized (machine : Machine) (image : List Byte)
    (oversized : Memory.capacity < image.length) :
    Report.ofLoad machine (load image) =
      ⟨machine, some (.unloadable (.programTooLarge image.length Memory.capacity))⟩ := by
  rw [Report.ofLoad, run_load_oversized machine image oversized]

theorem report_of_load_text (machine : Machine) (text : String) :
    (∃ image, Program.parse text = .ok image ∧
      Report.ofLoad machine (loadText text) = Report.ofLoad machine (load image)) ∨
    ∃ error, Report.ofLoad machine (loadText text) = ⟨machine, some (.unloadable error)⟩ := by
  rw [Report.ofLoad, run_load_text]
  cases Program.parse text with
  | ok image => exact .inl ⟨image, rfl, rfl⟩
  | error error => exact .inr ⟨error, rfl⟩

theorem with_program_of_fits (image : List Byte) (fits : image.length ≤ Memory.capacity) :
    withProgram image = .ok { fresh with memory := fresh.memory.overlay image fits } := by
  have loaded : fresh.memory.load image = .ok (fresh.memory.overlay image fits) := dif_pos fits
  rw [withProgram, run_load, loaded]
  rfl

theorem with_program_oversized (image : List Byte) (oversized : Memory.capacity < image.length) :
    withProgram image = .error (.programTooLarge image.length Memory.capacity) := by
  rw [withProgram, run_load_oversized fresh image oversized]

end Machine

end StoredProgram
