import StoredProgram.Program.Line
import StoredProgram.Text.WhiteSpace

set_option autoImplicit false

namespace StoredProgram.Program

open Text

def Blank (text : List Char) : Prop :=
  ∀ character ∈ text, character = ' ' ∨ character = '\t'

def Digits (text : List Char) : Prop :=
  text ≠ [] ∧ ∀ digit ∈ text, digit = '0' ∨ digit = '1'

inductive Numeral : List Char → Nat → Prop
  | plain {digits : List Char} : Digits digits → Numeral digits (Nat.ofDigitChars 2 digits 0)
  | marked {digits : List Char} : Digits digits → Numeral ('0' :: 'b' :: digits) (Nat.ofDigitChars 2 digits 0)

inductive Entry : List Char → Option Byte → Prop
  | missing : Entry [] none
  | literal {text : List Char} {value : Nat} : Numeral text value → value ≤ 255 → Entry text (some value.toUInt8)

inductive Comment : List Char → Prop
  | missing : Comment []
  | remark (text : List Char) : Comment ('#' :: text)

def Reads (line : List Char) (byte? : Option Byte) : Prop :=
  ∃ lead entry trail comment, line = lead ++ (entry ++ (trail ++ comment)) ∧
    Blank lead ∧ Entry entry byte? ∧ Blank trail ∧ Comment comment

-- Lines that miss the grammar narrowly, each form for any blanks in front of it.
inductive Misshapen : List Char → Prop
  | bareMark {lead trail comment : List Char} : Blank lead → Blank trail → Comment comment →
      Misshapen (lead ++ ('0' :: 'b' :: (trail ++ comment)))
  | capitalMark {lead rest : List Char} : Blank lead → Misshapen (lead ++ ('0' :: 'B' :: rest))
  | extended {lead literal rest : List Char} {value : Nat} {other : Char} : Blank lead → Numeral literal value →
      other ∉ [' ', '\t', '#', '0', '1'] → (literal = ['0'] → other ≠ 'b') →
      Misshapen (lead ++ (literal ++ other :: rest))
  | repeated {lead first gap second rest : List Char} {value another : Nat} : Blank lead → Numeral first value →
      Blank gap → gap ≠ [] → Numeral second another → Misshapen (lead ++ (first ++ (gap ++ (second ++ rest))))
  | oversized {lead literal rest : List Char} {value : Nat} : Blank lead → Numeral literal value → 255 < value →
      Misshapen (lead ++ (literal ++ rest))
  | otherSpace {front rest : List Char} {space : Char} : '#' ∉ front → isWhiteSpace space → space ≠ ' ' →
      space ≠ '\t' → Misshapen (front ++ space :: rest)

section Spans

variable {keeps : Char → Bool} {body rest : List Char}

theorem take_while_span (kept : ∀ character ∈ body, keeps character)
    (ended : ∀ character, rest.head? = some character → keeps character = false) :
    (body ++ rest).takeWhile keeps = body := by
  rw [List.takeWhile_append_of_pos kept]
  cases rest with
  | nil => simp
  | cons character rest => simp [ended character rfl]

theorem drop_while_span (kept : ∀ character ∈ body, keeps character)
    (ended : ∀ character, rest.head? = some character → keeps character = false) :
    (body ++ rest).dropWhile keeps = rest := by
  rw [List.dropWhile_append_of_pos kept]
  cases rest with
  | nil => rfl
  | cons character rest => simp [ended character rfl]

theorem mem_take_while (text : List Char) (character : Char) (member : character ∈ text.takeWhile keeps) :
    keeps character :=
  List.all_eq_true.mp List.all_takeWhile character member

end Spans

@[simp]
theorem is_blank_iff (character : Char) : isBlank character = true ↔ character = ' ' ∨ character = '\t' := by
  simp [isBlank]

@[simp]
theorem is_binary_digit_iff (digit : Char) : isBinaryDigit digit = true ↔ digit = '0' ∨ digit = '1' := by
  simp [isBinaryDigit]

theorem not_blank_iff (character : Char) : isBlank character = false ↔ character ≠ ' ' ∧ character ≠ '\t' := by
  simp [isBlank]

theorem not_binary_digit_iff (digit : Char) : isBinaryDigit digit = false ↔ digit ≠ '0' ∧ digit ≠ '1' := by
  simp [isBinaryDigit]

theorem not_binary_of_blank (character : Char) (blank : isBlank character) : isBinaryDigit character = false := by
  rcases (is_blank_iff character).mp blank with rfl | rfl <;> decide

theorem blank_nil : Blank [] :=
  List.forall_mem_nil _

theorem zero_digits : Digits ['0'] :=
  ⟨List.cons_ne_nil _ _, fun _ member => .inl (List.mem_singleton.mp member)⟩

theorem blank_take_while (text : List Char) : Blank (text.takeWhile isBlank) :=
  fun character member => (is_blank_iff character).mp (mem_take_while text character member)

theorem Blank.is_blank {text : List Char} (blank : Blank text) : ∀ character ∈ text, isBlank character :=
  fun character member => (is_blank_iff character).mpr (blank character member)

theorem Digits.binary {text : List Char} (digits : Digits text) : ∀ digit ∈ text, isBinaryDigit digit :=
  fun digit member => (is_binary_digit_iff digit).mpr (digits.2 digit member)

theorem binary_value_eq (digits : List Char) (binary : ∀ digit ∈ digits, isBinaryDigit digit) :
    binaryValue digits = Nat.ofDigitChars 2 digits 0 := by
  have folds (value : Nat) :
      digits.foldl (fun value digit => 2 * value + if digit = '1' then 1 else 0) value =
        Nat.ofDigitChars 2 digits value := by
    induction digits generalizing value with
    | nil => rfl
    | cons digit digits ih =>
        obtain ⟨first, later⟩ := List.forall_mem_cons.mp binary
        have same : (if digit = '1' then 1 else 0) = digit.toNat - '0'.toNat := by
          rcases (is_binary_digit_iff digit).mp first with rfl | rfl <;> decide
        rw [List.foldl_cons, Nat.ofDigitChars_cons, same]
        exact ih later _
  exact folds 0

theorem binary_value_le_append (digits more : List Char) : binaryValue digits ≤ binaryValue (digits ++ more) := by
  have grows (value : Nat) :
      value ≤ more.foldl (fun value digit => 2 * value + if digit = '1' then 1 else 0) value := by
    induction more generalizing value with
    | nil => exact Nat.le_refl value
    | cons digit more ih =>
        refine Nat.le_trans ?_ (ih (2 * value + if digit = '1' then 1 else 0))
        omega
  rw [binaryValue, binaryValue, List.foldl_append]
  exact grows _

theorem unmarked_cases (text : List Char) : unmarked text = text ∨ text = '0' :: 'b' :: unmarked text := by
  unfold unmarked
  split
  · exact .inr rfl
  · exact .inl rfl

-- A mark is a zero and a `b`. Digits have no `b` in second place, unless what follows a single zero has it.
theorem unmarked_digits (digits rest : List Char) (binary : Digits digits)
    (apart : digits = ['0'] → rest.head? ≠ some 'b') : unmarked (digits ++ rest) = digits ++ rest := by
  rcases unmarked_cases (digits ++ rest) with same | marked
  · exact same
  · obtain ⟨some_digit, digit⟩ := binary
    rcases digits with _ | ⟨first, _ | ⟨second, others⟩⟩
    · exact absurd rfl some_digit
    · obtain ⟨rfl, following⟩ := List.cons.inj marked
      have head : rest.head? = some 'b' := congrArg List.head? following
      exact absurd head (apart rfl)
    · obtain ⟨rfl, -⟩ := List.cons.inj (List.cons.inj marked).2
      exact absurd (digit 'b' (by simp)) (by decide)

namespace Numeral

variable {text rest : List Char} {value : Nat}

theorem starts (numeral : Numeral text value) :
    ∃ digit others, text = digit :: others ∧ (digit = '0' ∨ digit = '1') := by
  cases numeral with
  | plain digits =>
      obtain ⟨digit, others, rfl⟩ := List.exists_cons_of_ne_nil digits.1
      exact ⟨digit, others, rfl, digits.2 digit List.mem_cons_self⟩
  | marked => exact ⟨'0', _, rfl, .inl rfl⟩

theorem letters (numeral : Numeral text value) : ∀ character ∈ text, character ∈ ['0', '1', 'b'] := by
  have binary {digits : List Char} (digitsToo : Digits digits) : ∀ digit ∈ digits, digit ∈ ['0', '1', 'b'] := by
    intro digit member
    rcases digitsToo.2 digit member with rfl | rfl <;> simp
  cases numeral with
  | plain digits => exact binary digits
  | marked digits =>
      rw [List.forall_mem_cons, List.forall_mem_cons]
      exact ⟨by simp, by simp, binary digits⟩

theorem digits_of (numeral : Numeral text value) (apart : text = ['0'] → rest.head? ≠ some 'b') :
    ∃ digits, Digits digits ∧ unmarked (text ++ rest) = digits ++ rest ∧ Nat.ofDigitChars 2 digits 0 = value := by
  cases numeral with
  | plain binary => exact ⟨text, binary, unmarked_digits text rest binary apart, rfl⟩
  | marked binary => exact ⟨_, binary, rfl, rfl⟩

theorem literal_eq (numeral : Numeral text value)
    (ended : ∀ character, rest.head? = some character → isBinaryDigit character = false)
    (apart : text = ['0'] → rest.head? ≠ some 'b') :
    literal? (text ++ rest) = if value < 256 then some (value.toUInt8, rest) else none := by
  obtain ⟨digits, binary, same, rfl⟩ := numeral.digits_of apart
  have read := take_while_span binary.binary ended
  have left := drop_while_span binary.binary ended
  rw [literal?, same]
  simp [read, left, binary.1, binary_value_eq digits binary.binary]

theorem literal_of_oversized (numeral : Numeral text value) (large : 255 < value) : literal? (text ++ rest) = none := by
  have apart : text = ['0'] → rest.head? ≠ some 'b' := by
    rintro rfl
    cases numeral
    exact absurd large (by decide)
  obtain ⟨digits, binary, same, rfl⟩ := numeral.digits_of apart
  have grows := binary_value_le_append digits (rest.takeWhile isBinaryDigit)
  rw [binary_value_eq digits binary.binary] at grows
  rw [literal?, same, List.takeWhile_append_of_pos binary.binary, if_neg]
  omega

end Numeral

theorem entry_of_literal (text rest : List Char) (byte : Byte) (read : literal? text = some (byte, rest)) :
    ∃ literal, text = literal ++ rest ∧ Entry literal (some byte) := by
  simp only [literal?] at read
  split at read
  · rename_i counted
    obtain ⟨rfl, rfl⟩ := Prod.mk.inj (Option.some.inj read)
    have parts : (unmarked text).takeWhile isBinaryDigit ++ (unmarked text).dropWhile isBinaryDigit = unmarked text :=
      List.takeWhile_append_dropWhile
    have binary : ∀ digit ∈ (unmarked text).takeWhile isBinaryDigit, isBinaryDigit digit := mem_take_while _
    have digits : Digits ((unmarked text).takeWhile isBinaryDigit) :=
      ⟨counted.1, fun digit member => (is_binary_digit_iff digit).mp (binary digit member)⟩
    have small := Nat.le_of_lt_succ counted.2
    rw [binary_value_eq _ binary] at small ⊢
    rcases unmarked_cases text with same | marked
    · exact ⟨_, (parts.trans same).symm, .literal (.plain digits) small⟩
    · refine ⟨_, ?_, .literal (.marked digits) small⟩
      rw [List.cons_append, List.cons_append, parts]
      exact marked
  · cases read

def Closing (rest : List Char) : Prop :=
  ∀ character, rest.head? = some character → isBlank character ∨ character = '#'

theorem closing_of_comment {trail comment : List Char} (blank : Blank trail) (remark : Comment comment) :
    Closing (trail ++ comment) := by
  intro character head
  cases trail with
  | nil =>
      cases remark with
      | missing => cases head
      | remark text => exact .inr (Option.some.inj head).symm
  | cons first others =>
      cases head
      exact .inl (blank.is_blank character List.mem_cons_self)

theorem Closing.not_binary {rest : List Char} (closing : Closing rest) (character : Char)
    (head : rest.head? = some character) : isBinaryDigit character = false := by
  rcases closing character head with blank | rfl
  · exact not_binary_of_blank character blank
  · decide

theorem Closing.apart {rest : List Char} (closing : Closing rest) : rest.head? ≠ some 'b' := by
  intro head
  exact absurd (closing 'b' head) (by decide)

theorem closes_iff (text : List Char) :
    closes text ↔ ∃ trail comment, text = trail ++ comment ∧ Blank trail ∧ Comment comment := by
  constructor
  · intro closed
    have parts : text.takeWhile isBlank ++ text.dropWhile isBlank = text := List.takeWhile_append_dropWhile
    have blank := blank_take_while text
    rw [closes] at closed
    split at closed
    · rename_i empty
      exact ⟨_, [], (empty ▸ parts).symm, blank, .missing⟩
    · rename_i character others following
      obtain rfl := of_decide_eq_true closed
      exact ⟨_, _, (following ▸ parts).symm, blank, .remark others⟩
  · rintro ⟨trail, comment, rfl, blank, remark⟩
    rw [closes, List.dropWhile_append_of_pos blank.is_blank]
    cases remark <;> rfl

theorem closes_of_other {gap rest : List Char} {other : Char} (blank : Blank gap) (stray : other ∉ [' ', '\t', '#']) :
    closes (gap ++ other :: rest) = false := by
  simp only [List.mem_cons, List.not_mem_nil, or_false, not_or] at stray
  have solid := (not_blank_iff other).mpr ⟨stray.1, stray.2.1⟩
  rw [closes, List.dropWhile_append_of_pos blank.is_blank]
  simp [solid, stray.2.2]

theorem parse_line_blank {lead : List Char} (text : List Char) (blank : Blank lead) :
    parseLine (lead ++ text) = parseLine text := by
  rw [parseLine, parseLine, List.dropWhile_append_of_pos blank.is_blank]

theorem Numeral.parse_line_eq {text : List Char} {value : Nat} (numeral : Numeral text value) (rest : List Char) :
    parseLine (text ++ rest) =
      match literal? (text ++ rest) with
      | some (byte, following) => if closes following then some (some byte) else none
      | none => none := by
  obtain ⟨digit, others, rfl, binary⟩ := numeral.starts
  have solid : isBlank digit = false := by rcases binary with rfl | rfl <;> decide
  have unclosed : closes ([] ++ digit :: (others ++ rest)) = false :=
    closes_of_other blank_nil (by rcases binary with rfl | rfl <;> decide)
  rw [List.nil_append] at unclosed
  rw [parseLine, List.cons_append, List.dropWhile_cons_of_neg (by simp [solid])]
  cases literal? (digit :: (others ++ rest)) with
  | none => simp [unclosed]
  | some result => rfl

theorem parse_line_of_reads {line : List Char} {byte? : Option Byte} (reads : Reads line byte?) :
    parseLine line = some byte? := by
  obtain ⟨lead, text, trail, comment, rfl, blank, entry, blankToo, remark⟩ := reads
  rw [parse_line_blank _ blank]
  cases entry with
  | missing =>
      rw [List.nil_append, parse_line_blank _ blankToo]
      cases remark with
      | missing => rfl
      | remark text => rfl
  | @literal _ value numeral small =>
      have closing := closing_of_comment blankToo remark
      have closed := (closes_iff _).mpr ⟨trail, comment, rfl, blankToo, remark⟩
      rw [numeral.parse_line_eq, numeral.literal_eq closing.not_binary fun _ => closing.apart,
        if_pos (Nat.lt_succ_of_le small)]
      simp [closed]

theorem reads_of_parse_line {line : List Char} {byte? : Option Byte} (parsed : parseLine line = some byte?) :
    Reads line byte? := by
  have parts : line.takeWhile isBlank ++ line.dropWhile isBlank = line := List.takeWhile_append_dropWhile
  have blank := blank_take_while line
  rw [parseLine] at parsed
  cases read : literal? (line.dropWhile isBlank) with
  | none =>
      rw [read] at parsed
      dsimp only at parsed
      split at parsed
      · rename_i closed
        cases parsed
        obtain ⟨trail, comment, text, blankToo, remark⟩ := (closes_iff _).mp closed
        exact ⟨_, [], trail, comment, (text ▸ parts).symm, blank, .missing, blankToo, remark⟩
      · cases parsed
  | some result =>
      obtain ⟨byte, rest⟩ := result
      rw [read] at parsed
      dsimp only at parsed
      split at parsed
      · rename_i closed
        cases parsed
        obtain ⟨literal, text, entry⟩ := entry_of_literal _ rest byte read
        obtain ⟨trail, comment, rfl, blankToo, remark⟩ := (closes_iff _).mp closed
        exact ⟨_, literal, trail, comment, (text ▸ parts).symm, blank, entry, blankToo, remark⟩
      · cases parsed

theorem mem_of_uncommented {front rest body comment : List Char} (same : front ++ rest = body ++ comment)
    (remark : Comment comment) (uncommented : '#' ∉ front) : ∀ character ∈ front, character ∈ body := by
  intro character member
  rcases List.append_eq_append_iff.mp same with ⟨more, rfl, -⟩ | ⟨more, rfl, following⟩
  · exact List.mem_append_left more member
  · cases more with
    | nil => rwa [List.append_nil] at member
    | cons first others =>
        cases remark with
        | missing => cases following
        | remark text =>
            obtain ⟨rfl, -⟩ := List.cons.inj following
            exact absurd (List.mem_append_right body List.mem_cons_self) uncommented

theorem Reads.front {front rest : List Char} {byte? : Option Byte} (reads : Reads (front ++ rest) byte?)
    (uncommented : '#' ∉ front) (character : Char) (member : character ∈ front) :
    character ∈ [' ', '\t', '0', '1', 'b'] := by
  obtain ⟨lead, entry, trail, comment, parts, blank, literal, blankToo, remark⟩ := reads
  rw [← List.append_assoc entry, ← List.append_assoc lead] at parts
  have written := mem_of_uncommented parts remark uncommented character member
  rw [List.mem_append, List.mem_append] at written
  rcases written with blanks | letters | blanks
  · rcases blank character blanks with rfl | rfl <;> simp
  · cases literal with
    | missing => cases letters
    | literal numeral small =>
        exact List.mem_cons_of_mem _ (List.mem_cons_of_mem _ (numeral.letters character letters))
  · rcases blankToo character blanks with rfl | rfl <;> simp

theorem parse_line_eq_none {line : List Char} (outside : ∀ byte?, ¬ Reads line byte?) : parseLine line = none := by
  cases parsed : parseLine line with
  | none => rfl
  | some byte? => exact absurd (reads_of_parse_line parsed) (outside byte?)

theorem parse_line_of_stray {lead literal gap rest : List Char} {value : Nat} {other : Char} (blank : Blank lead)
    (numeral : Numeral literal value) (gapped : Blank gap) (stray : other ∉ [' ', '\t', '#'])
    (apart : gap = [] → other ∉ ['0', '1'] ∧ (literal = ['0'] → other ≠ 'b')) :
    parseLine (lead ++ (literal ++ (gap ++ other :: rest))) = none := by
  have unclosed : closes (gap ++ other :: rest) = false := closes_of_other gapped stray
  have ended : ∀ character, (gap ++ other :: rest).head? = some character → isBinaryDigit character = false := by
    intro character head
    cases gap with
    | nil =>
        obtain rfl := Option.some.inj head
        exact (not_binary_digit_iff other).mpr (by simpa using (apart rfl).1)
    | cons first others =>
        obtain rfl := Option.some.inj head
        exact not_binary_of_blank first (gapped.is_blank first List.mem_cons_self)
  have letter : literal = ['0'] → (gap ++ other :: rest).head? ≠ some 'b' := by
    intro zero head
    cases gap with
    | nil => exact (apart rfl).2 zero (Option.some.inj head)
    | cons first others =>
        obtain rfl := Option.some.inj head
        exact absurd (gapped 'b' List.mem_cons_self) (by decide)
  rw [parse_line_blank _ blank, numeral.parse_line_eq, numeral.literal_eq ended letter]
  split
  · rename_i byte following read
    split at read
    · cases read
      simp [unclosed]
    · cases read
  · rfl

theorem parse_line_of_misshapen {line : List Char} (misshapen : Misshapen line) : parseLine line = none := by
  cases misshapen with
  | @bareMark lead trail comment blank blankToo remark =>
      have unread := take_while_span (List.forall_mem_nil _) (closing_of_comment blankToo remark).not_binary
      have none_read : literal? ('0' :: 'b' :: (trail ++ comment)) = none := by
        rw [List.nil_append] at unread
        simp [literal?, unmarked, unread]
      have equation := (Numeral.plain zero_digits).parse_line_eq ('b' :: (trail ++ comment))
      rw [List.singleton_append, none_read] at equation
      rw [parse_line_blank _ blank, equation]
  | capitalMark blank =>
      exact parse_line_of_stray blank (.plain zero_digits) blank_nil (by decide) fun _ => ⟨by decide, by decide⟩
  | extended blank numeral stray letter =>
      simp only [List.mem_cons, List.not_mem_nil, or_false, not_or] at stray
      exact parse_line_of_stray blank numeral blank_nil (by simp [stray]) fun _ => ⟨by simp [stray], letter⟩
  | @repeated lead first gap second rest value another blank numeral gapped some_blank numeralToo =>
      obtain ⟨digit, others, rfl, binary⟩ := numeralToo.starts
      refine parse_line_of_stray blank numeral gapped ?_ fun empty => absurd empty some_blank
      rcases binary with rfl | rfl <;> decide
  | oversized blank numeral large =>
      rw [parse_line_blank _ blank, numeral.parse_line_eq, numeral.literal_of_oversized large]
  | @otherSpace front rest space uncommented white notBlank notTab =>
      refine parse_line_eq_none fun byte? reads => ?_
      have free : '#' ∉ front ++ [space] := by
        rw [List.mem_append, not_or]
        refine ⟨uncommented, fun same => ?_⟩
        rw [← List.mem_singleton.mp same] at white
        exact absurd white (by decide)
      rw [List.append_cons] at reads
      have allowed := reads.front free space (List.mem_append_right _ List.mem_cons_self)
      simp only [List.mem_cons, List.not_mem_nil, or_false] at allowed
      rcases allowed with rfl | rfl | rfl | rfl | rfl
      · exact notBlank rfl
      · exact notTab rfl
      all_goals exact absurd white (by decide)

theorem parse_line_accepts_grammar :
    (∀ line byte?, parseLine line = some byte? ↔ Reads line byte?) ∧
      ∀ line, Misshapen line → parseLine line = none :=
  ⟨fun _ _ => ⟨reads_of_parse_line, parse_line_of_reads⟩, fun _ => parse_line_of_misshapen⟩

theorem padded_literal_is_read :
    parseLine "\t0b0000000101 # five".toList = some (some 5) ∧ parseLine "1\r".toList = none := by
  obtain ⟨reads, misshapen⟩ := parse_line_accepts_grammar
  have digits : Digits "0000000101".toList := by simp [Digits]
  have lead : Blank ['\t'] := by simp [Blank]
  have trail : Blank [' '] := by simp [Blank]
  have entry : Entry "0b0000000101".toList (some 5) := .literal (.marked digits) (by decide)
  have remains : Misshapen (['1'] ++ ['\r']) := .otherSpace (by decide) (by decide) (by decide) (by decide)
  exact ⟨(reads _ _).mpr ⟨_, _, _, _, rfl, lead, entry, trail, .remark _⟩, misshapen _ remains⟩

end StoredProgram.Program
