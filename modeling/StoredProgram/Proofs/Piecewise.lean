import StoredProgram.Program.Source

set_option autoImplicit false

namespace StoredProgram

def LoadError.movedDown (count : Nat) : LoadError → LoadError
  | .malformedInstruction line text => .malformedInstruction (count + line) text
  | other => other

namespace Program

open Text

def Ended (text : List Char) : Prop :=
  text = [] ∨ ∃ front, text = front ++ ['\n']

theorem lines_from_append (begun front second : List Char) :
    linesFrom begun (front ++ '\n' :: second) = linesFrom begun (front ++ ['\n']) ++ lines second := by
  induction front generalizing begun with
  | nil => simp [linesFrom, lines]
  | cons character front ih =>
      by_cases newline : character = '\n'
      · simp [linesFrom, newline, ih]
      · simp [linesFrom, newline, ih]

theorem lines_append (first second : List Char) (ended : Ended first) :
    lines (first ++ second) = lines first ++ lines second := by
  rcases ended with rfl | ⟨front, rfl⟩
  · rfl
  · rw [List.append_assoc]
    exact lines_from_append [] front second

theorem length_lines_from (begun front : List Char) :
    (linesFrom begun (front ++ ['\n'])).length = (front ++ ['\n']).count '\n' := by
  induction front generalizing begun with
  | nil => simp [linesFrom]
  | cons character front ih =>
      by_cases newline : character = '\n'
      · simp [linesFrom, newline, ih]
      · simp [linesFrom, newline, ih]

theorem length_lines_ended (text : List Char) (ended : Ended text) : (lines text).length = text.count '\n' := by
  rcases ended with rfl | ⟨front, rfl⟩
  · rfl
  · exact length_lines_from [] front

theorem exists_ended_unbroken (text : List Char) :
    ∃ front rest, text = front ++ rest ∧ Ended front ∧ '\n' ∉ rest := by
  induction text with
  | nil => exact ⟨[], [], rfl, .inl rfl, List.not_mem_nil⟩
  | cons character text ih =>
      obtain ⟨front, rest, rfl, rfl | ⟨earlier, rfl⟩, unbroken⟩ := ih
      · by_cases newline : character = '\n'
        · exact ⟨[character], rest, rfl, .inr ⟨[], by rw [newline]; rfl⟩, unbroken⟩
        · refine ⟨[], character :: rest, rfl, .inl rfl, ?_⟩
          rw [List.mem_cons, not_or]
          exact ⟨Ne.symm newline, unbroken⟩
      · exact ⟨character :: (earlier ++ ['\n']), rest, rfl, .inr ⟨character :: earlier, rfl⟩, unbroken⟩

theorem length_lines_unended (text : List Char) (unended : ¬ Ended text) :
    (lines text).length = text.count '\n' + 1 := by
  obtain ⟨front, rest, rfl, ended, unbroken⟩ := exists_ended_unbroken text
  have begun : rest ≠ [] := by
    rintro rfl
    rw [List.append_nil] at unended
    exact unended ended
  have last : lines rest = [rest] := by
    rw [lines, lines_from_unbroken [] rest unbroken]
    simp [begun]
  rw [lines_append front rest ended, last, List.length_append, length_lines_ended front ended, List.count_append,
    List.count_eq_zero_of_not_mem unbroken]
  rfl

theorem parse_lines_moved (count number : Nat) (lines : List (List Char)) :
    parseLines (count + number) lines = (parseLines number lines).mapError (·.movedDown count) := by
  induction lines generalizing number with
  | nil => rfl
  | cons line following ih =>
      cases parsed : parseLine line with
      | none =>
          simp only [parseLines, parsed]
          rfl
      | some byte? =>
          rw [parse_lines_cons _ line byte? following parsed, parse_lines_cons _ line byte? following parsed,
            Nat.add_assoc, ih]
          cases parseLines (number + 1) following <;> rfl

theorem parse_append (first second : String) (ended : Ended first.toList) :
    parse (first ++ second) =
      (parse first).bind fun image =>
        ((parse second).mapError (·.movedDown (first.toList.count '\n'))).map (image ++ ·) := by
  rw [parse, String.toList_append, lines_append _ _ ended, parse_lines_append, Nat.add_comm 1, parse_lines_moved,
    length_lines_ended _ ended]
  rfl

structure FirstMalformed (text : List Char) (number : Nat) (content : List Char) : Prop where
  positive : 1 ≤ number
  within : number ≤ (lines text).length
  line : ∃ before line after, lines text = before ++ line :: after ∧ before.length + 1 = number ∧
    (∀ earlier ∈ before, (parseLine earlier).isSome) ∧ parseLine line = none ∧ Trimmed line content

theorem first_malformed_of_error (text : String) (error : LoadError) (failed : parse text = .error error) :
    ∃ number content, error = .malformedInstruction number (String.ofList content) ∧
      FirstMalformed text.toList number content := by
  obtain ⟨before, line, after, parts, fine, malformed, rfl⟩ := (parse_lines_error_iff 1 _ error).mp failed
  refine ⟨1 + before.length, trim line, rfl, Nat.le_add_right 1 _, ?_, before, line, after, parts,
    Nat.add_comm before.length 1, fine, malformed, trimmed_trim line⟩
  rw [parts, List.length_append, List.length_cons]
  omega

theorem program_text_parses_piecewise :
    (∀ first second : String, Ended first.toList →
      (∀ error, parse first = .error error → parse (first ++ second) = .error error) ∧
      (∀ image more, parse first = .ok image → parse second = .ok more →
        parse (first ++ second) = .ok (image ++ more)) ∧
      ∀ image line text, parse first = .ok image → parse second = .error (.malformedInstruction line text) →
        parse (first ++ second) = .error (.malformedInstruction (first.toList.count '\n' + line) text)) ∧
    (∀ text error, parse text = .error error →
      ∃ number content, error = .malformedInstruction number (String.ofList content) ∧
        FirstMalformed text.toList number content) ∧
    ∀ text, (Ended text → (lines text).length = text.count '\n') ∧
      (¬ Ended text → (lines text).length = text.count '\n' + 1) := by
  refine ⟨?_, first_malformed_of_error, fun text => ⟨length_lines_ended text, length_lines_unended text⟩⟩
  intro first second ended
  rw [parse_append first second ended]
  refine ⟨?_, ?_, ?_⟩
  · intro error failed
    rw [failed]
    rfl
  · intro image more parsed parsedToo
    rw [parsed, parsedToo]
    rfl
  · intro image line text parsed failed
    rw [parsed, failed]
    rfl

theorem second_piece_fails_below_the_first :
    Ended "1\r\n# one\n".toList ∧ parse "1\r\n# one\n" = .ok [1] ∧
      parse "\n 2\u00a0\n1" = .error (.malformedInstruction 2 "2") ∧
      parse ("1\r\n# one\n" ++ "\n 2\u00a0\n1") = .error (.malformedInstruction 4 "2") ∧
      parse ("\n 2\u00a0\n" ++ "1") = .error (.malformedInstruction 2 "2") ∧
      (lines "\n 2\u00a0\n1".toList).length = 3 ∧
      ∃ content, String.ofList content = "2" ∧ FirstMalformed "\n 2\u00a0\n1".toList 2 content := by
  obtain ⟨pieces, reports, counted⟩ := program_text_parses_piecewise
  have ended : Ended "1\r\n# one\n".toList := .inr ⟨"1\r\n# one".toList, rfl⟩
  have endedToo : Ended "\n 2\u00a0\n".toList := .inr ⟨"\n 2\u00a0".toList, rfl⟩
  have parsed : parse "1\r\n# one\n" = .ok [1] := rfl
  have failed : parse "\n 2\u00a0\n1" = .error (.malformedInstruction 2 "2") := rfl
  have failedToo : parse "\n 2\u00a0\n" = .error (.malformedInstruction 2 "2") := rfl
  have unended : ¬ Ended "\n 2\u00a0\n1".toList := by
    rintro (empty | ⟨front, same⟩)
    · cases empty
    · have last : some '1' = (front ++ ['\n']).getLast? := congrArg List.getLast? same
      rw [List.getLast?_concat] at last
      cases last
  refine ⟨ended, parsed, failed, (pieces _ _ ended).2.2 [1] 2 "2" parsed failed,
    (pieces _ "1" endedToo).1 _ failedToo, (counted _).2 unended, ?_⟩
  obtain ⟨number, content, report, first⟩ := reports _ _ failed
  obtain ⟨rfl, text⟩ := LoadError.malformedInstruction.inj report
  exact ⟨content, text.symm, first⟩

end Program

end StoredProgram
