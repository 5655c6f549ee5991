set_option autoImplicit false

namespace StoredProgram

inductive Operation where
  | add
  | sub
  | mul
  | div
  | mod
  | inc
  | dec
  | cmp
  | and
  | or
  | xor
  | not
  | shl
  | shr
deriving DecidableEq, Repr

namespace Operation

def all : List Operation :=
  [.add, .sub, .mul, .div, .mod, .inc, .dec, .cmp, .and, .or, .xor, .not, .shl, .shr]

def name : Operation → String
  | .add => "ADD"
  | .sub => "SUB"
  | .mul => "MUL"
  | .div => "DIV"
  | .mod => "MOD"
  | .inc => "INC"
  | .dec => "DEC"
  | .cmp => "CMP"
  | .and => "AND"
  | .or => "OR"
  | .xor => "XOR"
  | .not => "NOT"
  | .shl => "SHL"
  | .shr => "SHR"

def ofName? (name : String) : Option Operation :=
  all.find? fun operation => operation.name = name

theorem of_name_name (operation : Operation) : ofName? operation.name = some operation := by
  cases operation <;> decide

end Operation

end StoredProgram
