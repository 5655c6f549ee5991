import StoredProgram.Byte
import StoredProgram.Text.Numeral

set_option autoImplicit false

namespace StoredProgram.Program

open Text

def isBlank (character : Char) : Bool :=
  character = ' ' || character = '\t'

def unmarked : List Char → List Char
  | '0' :: 'b' :: rest => rest
  | text => text

def literal? (text : List Char) : Option (Byte × List Char) :=
  let digits := (unmarked text).takeWhile isBinaryDigit
  let value := binaryValue digits
  if digits ≠ [] ∧ value < 256 then
    some (value.toUInt8, (unmarked text).dropWhile isBinaryDigit)
  else
    none

def closes (text : List Char) : Bool :=
  match text.dropWhile isBlank with
  | [] => true
  | character :: _ => character = '#'

-- What a line contributes: `some none` where it is empty but for a comment, and `none` where it is
-- malformed.
def parseLine (line : List Char) : Option (Option Byte) :=
  let text := line.dropWhile isBlank
  match literal? text with
  | some (byte, rest) => if closes rest then some (some byte) else none
  | none => if closes text then some none else none

end StoredProgram.Program
