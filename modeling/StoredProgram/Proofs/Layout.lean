import StoredProgram.Proofs.Grammar

set_option autoImplicit false

namespace StoredProgram.Program

open Text

structure Literal where
  byte : Byte
  marked : Bool
  zeros : Nat
deriving DecidableEq, Repr

namespace Literal

def digits (literal : Literal) : List Char :=
  List.replicate literal.zeros '0' ++ Nat.toDigits 2 literal.byte.toNat

def text (literal : Literal) : List Char :=
  (if literal.marked then ['0', 'b'] else []) ++ literal.digits

end Literal

structure Layout where
  lead : List Char
  literal : Option Literal
  trail : List Char
  comment : Option (List Char)
  lead_blank : ∀ character ∈ lead, isBlank character
  trail_blank : ∀ character ∈ trail, isBlank character
  comment_unbroken : ∀ remark ∈ comment, '\n' ∉ remark
deriving DecidableEq, Repr

namespace Layout

def byte? (layout : Layout) : Option Byte :=
  layout.literal.map Literal.byte

def remark (layout : Layout) : List Char :=
  match layout.comment with
  | none => []
  | some comment => '#' :: comment

def text (layout : Layout) : List Char :=
  layout.lead ++ (layout.literal.elim [] Literal.text ++ (layout.trail ++ layout.remark))

end Layout

theorem binary_of_mem_to_digits (number : Nat) (digit : Char) (member : digit ∈ Nat.toDigits 2 number) :
    isBinaryDigit digit := by
  induction number using Nat.strongRecOn with
  | ind number ih =>
      have small (bit : Nat) (low : bit < 2) : isBinaryDigit bit.digitChar := by
        rcases Nat.le_one_iff_eq_zero_or_eq_one.mp (Nat.le_of_lt_succ low) with rfl | rfl <;> decide
      rw [Nat.toDigits_eq_if (by decide)] at member
      split at member
      · rename_i low
        rw [List.mem_singleton.mp member]
        exact small number low
      · rename_i high
        rcases List.mem_append.mp member with earlier | last
        · exact ih (number / 2) (by omega) earlier
        · rw [List.mem_singleton.mp last]
          exact small (number % 2) (Nat.mod_lt number (by decide))

namespace Literal

theorem digits_binary (literal : Literal) : ∀ digit ∈ literal.digits, isBinaryDigit digit := by
  intro digit member
  rcases List.mem_append.mp member with zero | needed
  · rw [List.eq_of_mem_replicate zero]
    decide
  · exact binary_of_mem_to_digits _ digit needed

theorem digits_ne_nil (literal : Literal) : literal.digits ≠ [] := by
  simp [digits, Nat.toDigits_ne_nil]

theorem value_digits (literal : Literal) : Nat.ofDigitChars 2 literal.digits 0 = literal.byte.toNat := by
  rw [digits, Nat.ofDigitChars_append, Nat.ofDigitChars_replicate_zero, Nat.mul_zero]
  exact Nat.ofDigitChars_toDigits (by decide) (by decide)

theorem numeral (literal : Literal) : Numeral literal.text literal.byte.toNat := by
  have digits : Digits literal.digits :=
    ⟨literal.digits_ne_nil, fun digit member => (is_binary_digit_iff digit).mp (literal.digits_binary digit member)⟩
  rw [← literal.value_digits, text]
  cases literal.marked with
  | true => exact .marked digits
  | false => exact .plain digits

theorem entry (literal : Literal) : Entry literal.text (some literal.byte) := by
  have small := Nat.le_of_lt_succ literal.byte.toNat_lt
  have entry := Entry.literal literal.numeral small
  rwa [Nat.toUInt8_eq, UInt8.ofNat_toNat] at entry

end Literal

namespace Layout

theorem reads (layout : Layout) : Reads layout.text layout.byte? := by
  refine ⟨layout.lead, _, layout.trail, layout.remark, rfl, ?_, ?_, ?_, ?_⟩
  · exact fun character member => (is_blank_iff character).mp (layout.lead_blank character member)
  · cases written : layout.literal with
    | none => simpa [byte?, written] using Entry.missing
    | some literal => simpa [byte?, written] using literal.entry
  · exact fun character member => (is_blank_iff character).mp (layout.trail_blank character member)
  · rw [remark]
    cases layout.comment with
    | none => exact .missing
    | some comment => exact .remark comment

theorem parse_line_text (layout : Layout) : parseLine layout.text = some layout.byte? :=
  parse_line_of_reads layout.reads

end Layout

end StoredProgram.Program
