set_option autoImplicit false

namespace StoredProgram.Text

def decimal (number : Nat) : String :=
  Nat.repr number

def binaryDigits : Nat → Nat → List Char
  | 0, _ => []
  | width + 1, number => binaryDigits width (number / 2) ++ [if number % 2 = 0 then '0' else '1']

def binary (width number : Nat) : String :=
  String.ofList (binaryDigits width number)

def isBinaryDigit (digit : Char) : Bool :=
  digit = '0' || digit = '1'

def binaryValue (digits : List Char) : Nat :=
  digits.foldl (fun value digit => 2 * value + if digit = '1' then 1 else 0) 0

theorem decimal_inj {first second : Nat} : decimal first = decimal second ↔ first = second := by
  constructor
  · intro same
    have digits : Nat.toDigits 10 first = Nat.toDigits 10 second := by
      rw [← Nat.toList_repr, ← Nat.toList_repr]
      exact congrArg String.toList same
    have value : Nat.ofDigitChars 10 (Nat.toDigits 10 first) 0 = Nat.ofDigitChars 10 (Nat.toDigits 10 second) 0 :=
      congrArg (Nat.ofDigitChars 10 · 0) digits
    rwa [Nat.ofDigitChars_toDigits (by decide) (by decide), Nat.ofDigitChars_toDigits (by decide) (by decide)] at value
  · rintro rfl
    rfl

theorem digit_of_mem_decimal (number : Nat) (character : Char) (member : character ∈ (decimal number).toList) :
    character.isDigit := by
  rw [decimal, Nat.toList_repr] at member
  exact Nat.isDigit_of_mem_toDigits (by decide) (by decide) member

theorem length_binary_digits (width number : Nat) : (binaryDigits width number).length = width := by
  induction width generalizing number with
  | zero => rfl
  | succ width ih => simp [binaryDigits, ih]

theorem binary_value_append (digits : List Char) (digit : Char) :
    binaryValue (digits ++ [digit]) = 2 * binaryValue digits + if digit = '1' then 1 else 0 := by
  simp [binaryValue]

theorem binary_value_digits (width number : Nat) :
    binaryValue (binaryDigits width number) = number % Nat.pow 2 width := by
  induction width generalizing number with
  | zero => exact (Nat.mod_one number).symm
  | succ width ih =>
      have halves : number % Nat.pow 2 (width + 1) = number % 2 + 2 * (number / 2 % Nat.pow 2 width) := by
        rw [show Nat.pow 2 (width + 1) = 2 * Nat.pow 2 width from Nat.pow_succ']
        exact Nat.mod_mul
      have parity := Nat.mod_two_eq_zero_or_one number
      rw [binaryDigits, binary_value_append, ih, halves]
      rcases parity with even | odd
      · simp [even]
      · simp [odd, Nat.add_comm]

theorem binary_inj {width first second : Nat} (small : first < Nat.pow 2 width) (smallToo : second < Nat.pow 2 width) :
    binary width first = binary width second ↔ first = second := by
  constructor
  · intro same
    have digits : binaryDigits width first = binaryDigits width second := String.ofList_injective same
    have value := congrArg binaryValue digits
    rwa [binary_value_digits, binary_value_digits, Nat.mod_eq_of_lt small, Nat.mod_eq_of_lt smallToo] at value
  · rintro rfl
    rfl

end StoredProgram.Text
