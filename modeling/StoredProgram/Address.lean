import StoredProgram.Text.Numeral
import StoredProgram.Word

set_option autoImplicit false

namespace StoredProgram

open Text

inductive Address where
  | memory (index : Nat)
  | register (index : Nat)
deriving DecidableEq, Repr

namespace Address

def index : Address → Nat
  | .memory index => index
  | .register index => index

def text : Address → String
  | .memory index => "RAM[" ++ decimal index ++ "]"
  | .register index => "R[" ++ decimal index ++ "]"

def offset (distance : Nat) : Address → Address
  | .memory index => .memory (index + distance)
  | .register index => .register (index + distance)

def add? (address : Address) (distance : Nat) : Option Address :=
  if address.index + distance < wordCount then some (address.offset distance) else none

def compare : Address → Address → Ordering
  | .memory first, .memory second => Ord.compare first second
  | .memory _, .register _ => .lt
  | .register _, .memory _ => .gt
  | .register first, .register second => Ord.compare first second

instance : Ord Address := ⟨Address.compare⟩

theorem compare_eq_iff (first second : Address) : first.compare second = .eq ↔ first = second := by
  cases first <;> cases second <;> simp [compare]

theorem text_inj {first second : Address} : first.text = second.text ↔ first = second := by
  constructor
  · intro same
    cases first with
    | memory index =>
        cases second with
        | memory other =>
            rw [text, text, String.append_left_inj, String.append_right_inj, decimal_inj] at same
            rw [same]
        | register other =>
            have letters := congrArg (fun text => text.toList[1]?) same
            simp [text] at letters
    | register index =>
        cases second with
        | memory other =>
            have letters := congrArg (fun text => text.toList[1]?) same
            simp [text] at letters
        | register other =>
            rw [text, text, String.append_left_inj, String.append_right_inj, decimal_inj] at same
            rw [same]
  · rintro rfl
    rfl

end Address

end StoredProgram
