import StoredProgram.Text.Numeral

set_option autoImplicit false

namespace StoredProgram

open Text

inductive ReadFailure where
  | system (description : String) (code : Nat)
  | notUtf8
deriving DecidableEq, Repr

def ReadFailure.message : ReadFailure → String
  | .system description code => description ++ " (os error " ++ decimal code ++ ")"
  | .notUtf8 => "stream did not contain valid UTF-8"

inductive LoadError where
  | programNotFound (path : String) (cause : ReadFailure)
  | malformedInstruction (line : Nat) (text : String)
  | programTooLarge (length capacity : Nat)
deriving DecidableEq, Repr

def LoadError.message : LoadError → String
  | .programNotFound path cause => "File not found: " ++ path ++ ": " ++ cause.message
  | .malformedInstruction line text =>
      "Malformed instruction on line " ++ decimal line ++ ": `" ++ text ++
        "` is not an 8 bit binary literal"
  | .programTooLarge length capacity =>
      "Program is " ++ decimal length ++ " bytes but memory holds only " ++ decimal capacity

end StoredProgram
