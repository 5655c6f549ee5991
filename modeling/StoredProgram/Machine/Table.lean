import StoredProgram.Machine.Basic
import StoredProgram.Text.Grid
import StoredProgram.Text.Lines

set_option autoImplicit false

namespace StoredProgram

open Text

def Byte.contents (byte : Byte) : String :=
  binary 8 byte.toNat ++ " " ++ padLeft 3 (decimal byte.toNat)

def counterMark : String := "* --> "

def cellRow (marked : Bool) (label : String) (byte : Byte) : String × String :=
  ((if marked then counterMark else "") ++ label ++ " =", byte.contents)

def cellGrid (cells : List (String × Byte)) (marked : Option Nat) : Grid where
  titles := ("Address", "Contents")
  rows := cells.zipIdx.map fun ((label, byte), position) => cellRow (some position = marked) label byte
  alignment := .right

namespace Registers

def label (index : Nat) : String :=
  (if index = stackPointer then "SP " else "") ++ (Address.register index).text

def grid (registers : Registers) : Grid :=
  cellGrid (registers.cells.zipIdx.map fun (byte, index) => (label index, byte)) none

end Registers

namespace Machine

def shownCells (machine : Machine) : List (Byte × Nat) :=
  machine.memory.cells.zipIdx.filter fun (byte, index) => byte != 0 || index == machine.pc

def counterPosition? (machine : Machine) : Option Nat :=
  machine.shownCells.findIdx? fun cell => cell.2 == machine.pc

def memoryGrid (machine : Machine) : Grid :=
  cellGrid (machine.shownCells.map fun (byte, index) => ((Address.memory index).text, byte))
    machine.counterPosition?

def heading (machine : Machine) : String :=
  "PC: " ++ decimal machine.pc ++ "\tFL: " ++ machine.flag.name ++ " (" ++
    binary 3 machine.flag.bits.toNat ++ ")\tSteps: " ++ decimal machine.steps

def grid (machine : Machine) : Grid where
  titles := ("Registers", "Memory")
  rows := pairCells machine.registers.grid.lines machine.memoryGrid.lines
  alignment := .left

def table (machine : Machine) : String :=
  unlines (machine.heading :: machine.grid.lines)

end Machine

end StoredProgram
