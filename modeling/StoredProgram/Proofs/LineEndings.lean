import StoredProgram.Proofs.Piecewise
import StoredProgram.Proofs.RoundTrip

set_option autoImplicit false

namespace StoredProgram.Program

open Text

def returnedNewlines (text : List Char) : List Char :=
  text.flatMap fun character => if character = '\n' then ['\r', '\n'] else [character]

def returned (text : String) : String :=
  String.ofList (returnedNewlines text.toList)

theorem returned_newline (text : List Char) :
    returnedNewlines ('\n' :: text) = '\r' :: '\n' :: returnedNewlines text := rfl

theorem returned_other (character : Char) (text : List Char) (other : character ≠ '\n') :
    returnedNewlines (character :: text) = character :: returnedNewlines text := by
  rw [returnedNewlines, List.flatMap_cons, if_neg other]
  rfl

-- The begun line is part of what holds no ending with a carriage return, for it may have one at its end.
theorem lines_from_returned (begun text : List Char) (plain : ¬ ['\r', '\n'] <:+: begun.reverse ++ text) :
    linesFrom begun (returnedNewlines text) = linesFrom begun text := by
  induction text generalizing begun with
  | nil => rfl
  | cons character text ih =>
      by_cases newline : character = '\n'
      · subst newline
        have kept : dropReturn begun = begun := by
          apply drop_return_of_head
          intro head
          obtain ⟨earlier, rfl⟩ := List.head?_eq_some_iff.mp head
          apply plain
          exact ⟨earlier.reverse, text, by simp⟩
        have plainToo : ¬ ['\r', '\n'] <:+: List.reverse [] ++ text := by
          intro found
          apply plain
          exact found.trans ⟨begun.reverse ++ ['\n'], [], by simp⟩
        have dropped : dropReturn ('\r' :: begun) = begun := rfl
        simp [returned_newline, linesFrom, dropped, kept, ih [] plainToo]
      · have plainToo : ¬ ['\r', '\n'] <:+: (character :: begun).reverse ++ text := by
          rwa [List.reverse_cons, List.append_assoc]
        simp [returned_other character text newline, linesFrom, newline, ih _ plainToo]

theorem lines_returned (text : List Char) (plain : ¬ ['\r', '\n'] <:+: text) :
    lines (returnedNewlines text) = lines text :=
  lines_from_returned [] text plain

-- With its ending the last line is the same, and where nothing was begun it is an empty one, which has no byte.
theorem parse_last_line (number : Nat) (line : List Char) (unbroken : '\n' ∉ line)
    (unreturned : line.getLast? ≠ some '\r') :
    parseLines number (lines (line ++ ['\n'])) = parseLines number (lines line) := by
  have kept : dropReturn line.reverse = line.reverse := by
    apply drop_return_of_head
    rwa [List.head?_reverse]
  have ended : lines (line ++ ['\n']) = [line] := by
    rw [lines, lines_from_append_newline [] line [] unbroken, List.append_nil, kept, List.reverse_reverse]
    rfl
  rw [ended, lines, lines_from_unbroken [] line unbroken, List.append_nil, List.reverse_reverse]
  cases line with
  | nil => rfl
  | cons character line => simp

theorem parse_ended (text : String) (unreturned : text.toList.getLast? ≠ some '\r') :
    parse (text ++ "\n") = parse text := by
  obtain ⟨front, line, parts, ended, unbroken⟩ := exists_ended_unbroken text.toList
  have last : line.getLast? ≠ some '\r' := by
    intro ending
    apply unreturned
    rw [parts, List.getLast?_append, ending]
    rfl
  have whole : (text ++ "\n").toList = front ++ (line ++ ['\n']) := by
    rw [String.toList_append, parts, List.append_assoc]
    rfl
  rw [parse, parse, whole, parts, lines_append _ _ ended, lines_append _ _ ended, parse_lines_append,
    parse_lines_append, parse_last_line _ line unbroken last]

theorem line_endings_do_not_matter :
    (∀ text : String, ¬ ['\r', '\n'] <:+: text.toList → parse (returned text) = parse text) ∧
    ∀ text : String, text.toList.getLast? ≠ some '\r' → parse (text ++ "\n") = parse text := by
  refine ⟨?_, parse_ended⟩
  intro text plain
  rw [parse, returned, String.toList_ofList, lines_returned text.toList plain, parse]

theorem stray_returns_stay :
    ¬ ['\r', '\n'] <:+: "1 # \rone\n\n0b10".toList ∧ "1 # \rone\n\n0b10".toList.getLast? ≠ some '\r' ∧
      returned "1 # \rone\n\n0b10" = "1 # \rone\r\n\r\n0b10" ∧ parse "1 # \rone\r\n\r\n0b10" = .ok [1, 2] ∧
      parse "1 # \rone\n\n0b10\n" = .ok [1, 2] ∧
      ¬ ['\r', '\n'] <:+: "1\n\nhello\r".toList ∧ returned "1\n\nhello\r" = "1\r\n\r\nhello\r" ∧
      parse "1\r\n\r\nhello\r" = .error (.malformedInstruction 3 "hello") := by
  obtain ⟨replaced, ended⟩ := line_endings_do_not_matter
  have plain : ¬ ['\r', '\n'] <:+: "1 # \rone\n\n0b10".toList := by simp [List.infix_cons_iff]
  have plainToo : ¬ ['\r', '\n'] <:+: "1\n\nhello\r".toList := by simp [List.infix_cons_iff]
  have last : "1 # \rone\n\n0b10".toList.getLast? ≠ some '\r' := by simp
  have parsed : parse "1 # \rone\n\n0b10" = .ok [1, 2] := rfl
  have failed : parse "1\n\nhello\r" = .error (.malformedInstruction 3 "hello") := rfl
  exact ⟨plain, last, rfl, (replaced _ plain).trans parsed, (ended _ last).trans parsed, plainToo, rfl,
    (replaced _ plainToo).trans failed⟩

end StoredProgram.Program
