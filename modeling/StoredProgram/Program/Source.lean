import StoredProgram.Program.Line
import StoredProgram.Program.LoadError
import StoredProgram.Text.WhiteSpace

set_option autoImplicit false

namespace StoredProgram.Program

open Text

def dropReturn : List Char → List Char
  | '\r' :: line => line
  | line => line

-- The lines of a text, of which the first starts with `begun`, given last character first.
def linesFrom (begun : List Char) : List Char → List (List Char)
  | [] => if begun.isEmpty then [] else [begun.reverse]
  | character :: text =>
      if character = '\n' then (dropReturn begun).reverse :: linesFrom [] text
      else linesFrom (character :: begun) text

def lines (text : List Char) : List (List Char) :=
  linesFrom [] text

def parseLines (number : Nat) : List (List Char) → Except LoadError (List Byte)
  | [] => .ok []
  | line :: following =>
      match parseLine line with
      | none => .error (.malformedInstruction number (String.ofList (trim line)))
      | some byte? => (parseLines (number + 1) following).map (byte?.toList ++ ·)

def parse (text : String) : Except LoadError (List Byte) :=
  parseLines 1 (lines text.toList)

theorem lines_from_append_newline (begun line text : List Char) (unbroken : '\n' ∉ line) :
    linesFrom begun (line ++ '\n' :: text) =
      (dropReturn (line.reverse ++ begun)).reverse :: linesFrom [] text := by
  induction line generalizing begun with
  | nil => simp [linesFrom]
  | cons character line ih =>
      simp only [List.mem_cons, not_or] at unbroken
      simp [linesFrom, Ne.symm unbroken.1, ih _ unbroken.2]

theorem lines_from_unbroken (begun text : List Char) (unbroken : '\n' ∉ text) :
    linesFrom begun text =
      if (text.reverse ++ begun).isEmpty then [] else [(text.reverse ++ begun).reverse] := by
  induction text generalizing begun with
  | nil => simp [linesFrom]
  | cons character text ih =>
      simp only [List.mem_cons, not_or] at unbroken
      simp [linesFrom, Ne.symm unbroken.1, ih _ unbroken.2]

theorem parse_lines_append (number : Nat) (first second : List (List Char)) :
    parseLines number (first ++ second) =
      (parseLines number first).bind fun image =>
        (parseLines (number + first.length) second).map (image ++ ·) := by
  induction first generalizing number with
  | nil =>
      cases result : parseLines number second <;> simp [parseLines, result, Except.bind, Except.map]
  | cons line following ih =>
      simp only [List.cons_append, parseLines]
      cases parseLine line with
      | none => rfl
      | some byte? =>
          simp only [ih, List.length_cons, Nat.add_comm following.length, ← Nat.add_assoc]
          cases parseLines (number + 1) following with
          | error => rfl
          | ok image =>
              cases parseLines (number + 1 + following.length) second <;> simp [Except.bind, Except.map]

theorem parse_lines_cons (number : Nat) (line : List Char) (byte? : Option Byte) (following : List (List Char))
    (parsed : parseLine line = some byte?) :
    parseLines number (line :: following) = (parseLines (number + 1) following).map (byte?.toList ++ ·) := by
  rw [parseLines, parsed]

theorem parse_lines_error_iff (number : Nat) (lines : List (List Char)) (error : LoadError) :
    parseLines number lines = .error error ↔
      ∃ before line after, lines = before ++ line :: after ∧ (∀ earlier ∈ before, (parseLine earlier).isSome) ∧
        parseLine line = none ∧
        error = .malformedInstruction (number + before.length) (String.ofList (trim line)) := by
  constructor
  · intro failed
    induction lines generalizing number with
    | nil => cases failed
    | cons line following ih =>
        cases parsed : parseLine line with
        | none =>
            rw [parseLines, parsed] at failed
            cases failed
            exact ⟨[], line, following, rfl, nofun, parsed, rfl⟩
        | some byte? =>
            rw [parse_lines_cons number line byte? following parsed] at failed
            cases rest : parseLines (number + 1) following with
            | ok image =>
                rw [rest] at failed
                cases failed
            | error other =>
                rw [rest] at failed
                cases failed
                obtain ⟨before, first, after, rfl, fine, malformed, rfl⟩ := ih (number + 1) rest
                refine ⟨line :: before, first, after, rfl, ?_, malformed, ?_⟩
                · exact List.forall_mem_cons.mpr ⟨Option.isSome_of_eq_some parsed, fine⟩
                · rw [List.length_cons, Nat.add_assoc, Nat.add_comm 1]
  · rintro ⟨before, line, after, rfl, fine, malformed, rfl⟩
    induction before generalizing number with
    | nil =>
        rw [List.nil_append, parseLines, malformed]
        rfl
    | cons earlier before ih =>
        obtain ⟨first, others⟩ := List.forall_mem_cons.mp fine
        obtain ⟨byte?, parsed⟩ := Option.isSome_iff_exists.mp first
        rw [List.cons_append, parse_lines_cons number earlier byte? _ parsed, ih (number + 1) others,
          List.length_cons, Nat.add_assoc, Nat.add_comm 1]
        rfl

end StoredProgram.Program
