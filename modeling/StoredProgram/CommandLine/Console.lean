import StoredProgram.CommandLine.Log
import StoredProgram.Text.Lines

set_option autoImplicit false

namespace StoredProgram.CommandLine

open Text

structure Console where
  level : Log.Level
  output : String
  log : Array Log.Entry
deriving DecidableEq, Repr

namespace Console

def opened (level : Log.Level) : Console where
  level := level
  output := ""
  log := #[]

def print (console : Console) (text : String) : Console :=
  { console with output := console.output ++ text }

def printLine (console : Console) (line : String) : Console :=
  console.print (line ++ "\n")

def record (console : Console) (entry : Log.Entry) : Console :=
  if console.level.shows entry.severity then { console with log := console.log.push entry } else console

def extended (console : Console) (lines : List String) (entries : List Log.Entry) : Console where
  level := console.level
  output := console.output ++ unlines lines
  log := console.log ++ Log.filter console.level entries

theorem extended_nil (console : Console) : console.extended [] [] = console := by
  simp [extended, unlines, Log.filter]

theorem extended_extended (console : Console) (lines others : List String) (entries later : List Log.Entry) :
    (console.extended lines entries).extended others later =
      console.extended (lines ++ others) (entries ++ later) := by
  simp [extended, unlines_append, Log.filter, String.append_assoc, ← Array.toList_inj]

theorem print_line_extended (console : Console) (line : String) :
    console.printLine line = console.extended [line] [] := by
  simp [printLine, print, extended, unlines, Log.filter]

theorem record_extended (console : Console) (entry : Log.Entry) :
    console.record entry = console.extended [] [entry] := by
  by_cases shown : console.level.shows entry.severity <;>
    simp [record, extended, unlines, Log.filter, shown]

end Console

end StoredProgram.CommandLine
