import StoredProgram.Memory
import StoredProgram.Program.Source

set_option autoImplicit false

namespace StoredProgram.Program

abbrev Files := String → Except ReadFailure ByteArray

def readText (files : Files) (path : String) : Except ReadFailure String := do
  let content ← files path
  match String.fromUTF8? content with
  | some text => return text
  | none => throw .notUtf8

def load (files : Files) (path : String) : Except LoadError (List Byte) := do
  let text ← (readText files path).mapError (.programNotFound path)
  let image ← parse text
  if image.length ≤ Memory.capacity then
    return image
  else
    throw (.programTooLarge image.length Memory.capacity)

theorem read_text_eq_error_iff (files : Files) (path : String) :
    (∃ cause, readText files path = .error cause) ↔
      (∃ cause, files path = .error cause) ∨
        ∃ content, files path = .ok content ∧ String.fromUTF8? content = none := by
  simp only [readText, bind, Except.bind]
  cases files path with
  | error cause => exact ⟨fun _ => .inl ⟨cause, rfl⟩, fun _ => ⟨cause, rfl⟩⟩
  | ok content =>
      dsimp only
      cases decoded : String.fromUTF8? content with
      | none => exact ⟨fun _ => .inr ⟨content, rfl, decoded⟩, fun _ => ⟨.notUtf8, rfl⟩⟩
      | some text => simp [decoded, pure, Except.pure]

theorem load_eq (files : Files) (path : String) :
    load files path =
      match readText files path with
      | .error cause => .error (.programNotFound path cause)
      | .ok text =>
          match parse text with
          | .error error => .error error
          | .ok image =>
              if image.length ≤ Memory.capacity then .ok image
              else .error (.programTooLarge image.length Memory.capacity) := by
  simp only [load, bind, Except.bind]
  cases readText files path with
  | error cause => rfl
  | ok text =>
      have read : (Except.ok text).mapError (LoadError.programNotFound path) = .ok text := rfl
      rw [read]
      dsimp only
      cases parse text <;> rfl

theorem fits_of_load (files : Files) (path : String) (image : List Byte)
    (loaded : load files path = .ok image) : image.length ≤ Memory.capacity := by
  rw [load_eq] at loaded
  repeat' split at loaded
  all_goals cases loaded
  assumption

theorem load_error_cases (files : Files) (path : String) (error : LoadError)
    (failed : load files path = .error error) :
    (∃ cause, error = .programNotFound path cause ∧ readText files path = .error cause) ∨
      (∃ line text, error = .malformedInstruction line text) ∨
      ∃ length, error = .programTooLarge length Memory.capacity := by
  rw [load_eq] at failed
  cases read : readText files path with
  | error cause =>
      rw [read] at failed
      cases failed
      exact .inl ⟨cause, rfl, rfl⟩
  | ok text =>
      rw [read] at failed
      dsimp only at failed
      cases parsed : parse text with
      | error other =>
          rw [parsed] at failed
          cases failed
          obtain ⟨before, line, after, -, -, -, report⟩ := (parse_lines_error_iff 1 _ _).mp parsed
          exact .inr (.inl ⟨_, _, report⟩)
      | ok image =>
          rw [parsed] at failed
          dsimp only at failed
          split at failed
          · cases failed
          · cases failed
            exact .inr (.inr ⟨image.length, rfl⟩)

end StoredProgram.Program
