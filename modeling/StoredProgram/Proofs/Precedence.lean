import StoredProgram.Proofs.Piecewise
import StoredProgram.Proofs.RoundTrip

set_option autoImplicit false

namespace StoredProgram.Program

open Text

def described (lines : List (List Char)) : List Byte :=
  lines.filterMap fun line => (parseLine line).join

theorem parse_lines_described (number : Nat) (lines : List (List Char))
    (fine : ∀ line ∈ lines, (parseLine line).isSome) : parseLines number lines = .ok (described lines) := by
  induction lines generalizing number with
  | nil => rfl
  | cons line following ih =>
      obtain ⟨here, others⟩ := List.forall_mem_cons.mp fine
      obtain ⟨byte?, parsed⟩ := Option.isSome_iff_exists.mp here
      rw [parse_lines_cons number line byte? following parsed, ih (number + 1) others]
      cases byte? <;> simp [described, parsed, Except.map]

theorem parse_malformed (text : String) (line : List Char) (member : line ∈ lines text.toList)
    (malformed : parseLine line = none) :
    ∃ number content, parse text = .error (.malformedInstruction number (String.ofList content)) ∧
      FirstMalformed text.toList number content := by
  have some : ((lines text.toList).find? fun line => (parseLine line).isNone).isSome :=
    List.find?_isSome.mpr ⟨line, member, by rw [malformed]; rfl⟩
  obtain ⟨first, found⟩ := Option.isSome_iff_exists.mp some
  obtain ⟨unparsed, before, after, parts, fine⟩ := List.find?_eq_some_iff_append.mp found
  have earlier : ∀ line ∈ before, (parseLine line).isSome := by
    intro line member
    simpa using fine line member
  have failed := (parse_lines_error_iff 1 _ _).mpr
    ⟨before, first, after, parts, earlier, Option.isNone_iff_eq_none.mp unparsed, rfl⟩
  obtain ⟨number, content, report, reported⟩ := first_malformed_of_error text _ failed
  exact ⟨number, content, failed.trans (congrArg Except.error report), reported⟩

theorem FirstMalformed.number_eq {text : List Char} {number : Nat} {content : List Char}
    (first : FirstMalformed text number content) (before : List (List Char)) (line : List Char)
    (after : List (List Char)) (parts : lines text = before ++ line :: after)
    (fine : ∀ earlier ∈ before, (parseLine earlier).isSome) (malformed : parseLine line = none) :
    number = before.length + 1 := by
  obtain ⟨front, other, rest, partsToo, rfl, fineToo, malformedToo, -⟩ := first.line
  have here := (parse_lines_error_iff 1 _ _).mpr ⟨before, line, after, parts, fine, malformed, rfl⟩
  have there := (parse_lines_error_iff 1 _ _).mpr ⟨front, other, rest, partsToo, fineToo, malformedToo, rfl⟩
  obtain ⟨same, -⟩ := LoadError.malformedInstruction.inj (Except.error.inj (there.symm.trans here))
  omega

theorem read_text_undecodable (files : Files) (path : String) (content : ByteArray) (held : files path = .ok content)
    (invalid : ∀ text : String, text.toUTF8 ≠ content) : readText files path = .error .notUtf8 := by
  have undecodable : ¬ content.IsValidUTF8 := fun valid => invalid (String.fromUTF8 content valid) rfl
  have decoded : String.fromUTF8? content = none := dif_neg undecodable
  simp only [readText, held, bind, Except.bind, decoded]
  rfl

theorem machines_take (image : List Byte) (fits : image.length ≤ Memory.capacity) :
    (∃ built, Machine.withProgram image = .ok built) ∧
      ∀ machine, ∃ after, (Machine.load image).run machine = .ok () after := by
  refine ⟨⟨_, Machine.with_program_of_fits image fits⟩, fun machine => ?_⟩
  rw [Machine.run_load, Memory.load, dif_pos fits]
  exact ⟨_, rfl⟩

theorem machines_refuse (image : List Byte) (oversized : Memory.capacity < image.length) :
    Machine.withProgram image = .error (.programTooLarge image.length Memory.capacity) ∧
      ∀ machine, (Machine.load image).run machine =
        .error (.programTooLarge image.length Memory.capacity) machine :=
  ⟨Machine.with_program_oversized image oversized, fun machine => Machine.run_load_oversized machine image oversized⟩

theorem first_cause_is_reported (files : Files) (path : String) (content : ByteArray)
    (held : files path = .ok content) :
    ((∀ text : String, text.toUTF8 ≠ content) → load files path = .error (.programNotFound path .notUtf8)) ∧
    ∀ text : String, text.toUTF8 = content →
      (∀ line ∈ lines text.toList, parseLine line = none →
        ∃ number content, load files path = .error (.malformedInstruction number (String.ofList content)) ∧
          FirstMalformed text.toList number content) ∧
      ((∀ line ∈ lines text.toList, (parseLine line).isSome) →
        (100 < (described (lines text.toList)).length →
          load files path = .error (.programTooLarge (described (lines text.toList)).length 100)) ∧
        ((described (lines text.toList)).length ≤ 100 → load files path = .ok (described (lines text.toList)))) ∧
      (∀ image, load files path = .ok image →
        (∃ built, Machine.withProgram image = .ok built) ∧
          ∀ machine, ∃ after, (Machine.load image).run machine = .ok () after) ∧
      ∀ image length capacity, parse text = .ok image → load files path = .error (.programTooLarge length capacity) →
        Machine.withProgram image = .error (.programTooLarge length capacity) ∧
          ∀ machine, (Machine.load image).run machine = .error (.programTooLarge length capacity) machine := by
  refine ⟨?_, ?_⟩
  · intro invalid
    rw [load_eq, read_text_undecodable files path content held invalid]
  · rintro text rfl
    have loaded := load_of_text files path text held
    refine ⟨?_, ?_, ?_, ?_⟩
    · intro line member malformed
      obtain ⟨number, content, failed, first⟩ := parse_malformed text line member malformed
      rw [loaded, failed]
      exact ⟨number, content, rfl, first⟩
    · intro fine
      have parsed : parse text = .ok (described (lines text.toList)) := parse_lines_described 1 _ fine
      rw [loaded, parsed]
      exact ⟨fun oversized => if_neg (Nat.not_le.mpr oversized), fun fits => if_pos fits⟩
    · intro image returned
      exact machines_take image (fits_of_load files path image returned)
    · intro image length capacity parsed refused
      rw [loaded, parsed] at refused
      by_cases fits : image.length ≤ Memory.capacity
      · cases (if_pos fits).symm.trans refused
      · cases (if_neg fits).symm.trans refused
        exact machines_refuse image (Nat.not_le.mp fits)

def zeros (count : Nat) : String :=
  String.ofList (List.replicate count ['0', '\n']).flatten

theorem lines_zeros_append (count : Nat) (rest : String) :
    lines (zeros count ++ rest).toList = List.replicate count ['0'] ++ lines rest.toList := by
  rw [zeros, String.toList_append, String.toList_ofList]
  induction count with
  | zero => rfl
  | succ count ih =>
      rw [List.replicate_succ, List.replicate_succ, List.cons_append, ← ih]
      rfl

theorem lines_zeros (count : Nat) : lines (zeros count).toList = List.replicate count ['0'] := by
  have split := lines_zeros_append count ""
  rw [String.append_empty] at split
  exact split.trans (List.append_nil _)

theorem described_zeros (count : Nat) : described (lines (zeros count).toList) = List.replicate count 0 := by
  rw [lines_zeros]
  exact List.filterMap_replicate_of_some rfl

theorem zeros_fine (count : Nat) (line : List Char) (member : line ∈ List.replicate count ['0']) :
    (parseLine line).isSome := by
  rw [List.eq_of_mem_replicate member]
  rfl

theorem causes_come_in_order :
    load (fun _ => .ok ("hello\n# ".toUTF8 ++ ⟨#[0xff]⟩)) "program" = .error (.programNotFound "program" .notUtf8) ∧
      (∃ content, load (fun _ => .ok (zeros 101 ++ "hello").toUTF8) "program" =
          .error (.malformedInstruction 102 (String.ofList content)) ∧
        FirstMalformed (zeros 101 ++ "hello").toList 102 content) ∧
      load (fun _ => .ok (zeros 101).toUTF8) "program" = .error (.programTooLarge 101 100) ∧
      Machine.withProgram (List.replicate 101 0) = .error (.programTooLarge 101 100) ∧
      load (fun _ => .ok (zeros 100).toUTF8) "program" = .ok (List.replicate 100 0) ∧
      ∃ built, Machine.withProgram (List.replicate 100 0) = .ok built := by
  refine ⟨?_, ?_, ?_⟩
  · apply (first_cause_is_reported _ "program" _ rfl).1
    rintro text same
    have valid : ("hello\n# ".toUTF8 ++ ⟨#[0xff]⟩).IsValidUTF8 := by
      rw [← same]
      exact text.isValidUTF8
    exact absurd valid (by decide +kernel)
  · have parts := lines_zeros_append 101 "hello"
    have word : "hello".toList ∈ lines (zeros 101 ++ "hello").toList := by
      rw [parts]
      exact List.mem_append_right _ (List.mem_singleton.mpr rfl)
    obtain ⟨number, content, refused, first⟩ :=
      ((first_cause_is_reported (fun _ => .ok (zeros 101 ++ "hello").toUTF8) "program" _ rfl).2 _ rfl).1 _ word rfl
    have last := first.number_eq _ _ [] parts (zeros_fine 101) rfl
    rw [List.length_replicate] at last
    subst last
    exact ⟨content, refused, first⟩
  · obtain ⟨-, whole, -, agree⟩ :=
      (first_cause_is_reported (fun _ => .ok (zeros 101).toUTF8) "program" _ rfl).2 (zeros 101) rfl
    obtain ⟨-, wholeToo, taken, -⟩ :=
      (first_cause_is_reported (fun _ => .ok (zeros 100).toUTF8) "program" _ rfl).2 (zeros 100) rfl
    rw [described_zeros, lines_zeros, List.length_replicate] at whole wholeToo
    have refused := (whole (zeros_fine 101)).1 (by decide)
    have loaded := (wholeToo (zeros_fine 100)).2 (by decide)
    have parsed : parse (zeros 101) = .ok (List.replicate 101 0) := by
      rw [← described_zeros]
      apply parse_lines_described
      rw [lines_zeros]
      exact zeros_fine 101
    exact ⟨refused, (agree _ 101 100 parsed refused).1, loaded, (taken _ loaded).1⟩

end StoredProgram.Program
