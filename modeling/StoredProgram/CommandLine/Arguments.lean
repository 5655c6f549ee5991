import StoredProgram.CommandLine.Log
import StoredProgram.Word

set_option autoImplicit false

namespace StoredProgram.CommandLine

structure Arguments where
  program : String
  maxSteps : Option Nat
  disassemble : Bool
  dumpState : Bool
  level : Log.Level
deriving DecidableEq, Repr

inductive Refusal where
  | help
  | version
  | unknownArgument (argument : String)
  | unexpectedValue (option : String)
  | repeatedOption (option : String)
  | missingLimit
  | malformedLimit (text : String)
  | emptyProgram
  | missingProgram
deriving DecidableEq, Repr

inductive Switch where
  | verbosity
  | quiet
  | disassemble
  | dumpState
  | help
  | version
deriving DecidableEq, Repr

namespace Switch

def all : List Switch :=
  [.verbosity, .quiet, .disassemble, .dumpState, .help, .version]

def name : Switch → String
  | .verbosity => "verbosity"
  | .quiet => "quiet"
  | .disassemble => "disassemble"
  | .dumpState => "dump-state"
  | .help => "help"
  | .version => "version"

def ofName? (name : String) : Option Switch :=
  all.find? fun switch => switch.name = name

def ofLetter? : Char → Option Switch
  | 'v' => some .verbosity
  | 'q' => some .quiet
  | 'h' => some .help
  | 'V' => some .version
  | _ => none

end Switch

def limitName : String := "max-steps"

inductive Shape where
  | separator
  | option (name : String) (value : Option String)
  | cluster (letters : List Char)
  | plain
deriving DecidableEq, Repr

def splitValue (text : List Char) : String × Option String :=
  let name := String.ofList (text.takeWhile (· ≠ '='))
  match text.dropWhile (· ≠ '=') with
  | [] => (name, none)
  | _ :: value => (name, some (String.ofList value))

def Shape.ofArgument (argument : String) : Shape :=
  match argument.toList with
  | ['-', '-'] => .separator
  | '-' :: '-' :: text => .option (splitValue text).1 (splitValue text).2
  | '-' :: letter :: letters => .cluster (letter :: letters)
  | _ => .plain

def readLimit? (text : String) : Option Nat :=
  let digits := match text.toList with
    | '+' :: digits => digits
    | digits => digits
  let value := Nat.ofDigitChars 10 digits 0
  if digits ≠ [] ∧ digits.all Char.isDigit ∧ value < wordCount then some value else none

inductive Pending where
  | nothing
  | limit (text : Option String)
  | program (path : String)
deriving DecidableEq, Repr

structure Reading where
  pending : Pending
  program : Option String
  limit : Option Nat
  disassemble : Bool
  dumpState : Bool
  quiet : Bool
  verbosity : Nat
  separated : Bool
deriving DecidableEq, Repr

namespace Reading

def start : Reading where
  pending := .nothing
  program := none
  limit := none
  disassemble := false
  dumpState := false
  quiet := false
  verbosity := 0
  separated := false

def storeLimit (reading : Reading) (text : String) : Except Refusal Reading :=
  if reading.limit.isSome then
    .error (.repeatedOption limitName)
  else
    match readLimit? text with
    | some limit => .ok { reading with limit := some limit }
    | none => .error (.malformedLimit text)

def flush (reading : Reading) : Except Refusal Reading :=
  match reading.pending with
  | .nothing => .ok reading
  | .limit none => .error .missingLimit
  | .limit (some text) => { reading with pending := .nothing }.storeLimit text
  | .program path =>
      if path = "" then .error .emptyProgram
      else .ok { reading with pending := .nothing, program := some path }

def set (reading : Reading) (switch : Switch) : Except Refusal Reading := do
  let reading ← reading.flush
  match switch with
  | .help => throw .help
  | .version => throw .version
  | .verbosity => return { reading with verbosity := reading.verbosity + 1 }
  | .quiet =>
      if reading.quiet then throw (.repeatedOption switch.name)
      else return { reading with quiet := true }
  | .disassemble =>
      if reading.disassemble then throw (.repeatedOption switch.name)
      else return { reading with disassemble := true }
  | .dumpState =>
      if reading.dumpState then throw (.repeatedOption switch.name)
      else return { reading with dumpState := true }

def option (reading : Reading) (name : String) (value : Option String) : Except Refusal Reading :=
  if name = limitName then do
    let reading ← reading.flush
    match value with
    | some text => reading.storeLimit text
    | none => return { reading with pending := .limit none }
  else
    match Switch.ofName? name, value with
    | none, _ => .error (.unknownArgument ("--" ++ name))
    | some _, some _ => .error (.unexpectedValue name)
    | some switch, none => reading.set switch

def letter (reading : Reading) (letter : Char) : Except Refusal Reading :=
  match Switch.ofLetter? letter with
  | some switch => reading.set switch
  | none => .error (.unknownArgument ("-" ++ letter.toString))

def hasProgram (reading : Reading) : Bool :=
  match reading.pending with
  | .program _ => true
  | _ => reading.program.isSome

def plain (reading : Reading) (text : String) : Except Refusal Reading :=
  if reading.pending = .limit none ∧ reading.separated = false then
    .ok { reading with pending := .limit (some text) }
  else if reading.hasProgram then
    .error (.unknownArgument text)
  else do
    let reading ← reading.flush
    return { reading with pending := .program text }

def accept (reading : Reading) (argument : String) : Except Refusal Reading :=
  if reading.separated then
    reading.plain argument
  else
    match Shape.ofArgument argument with
    | .separator => .ok { reading with separated := true }
    | .option name value => reading.option name value
    | .cluster letters => letters.foldlM letter reading
    | .plain => reading.plain argument

def level (reading : Reading) : Log.Level :=
  if reading.quiet then .off
  else
    match reading.verbosity with
    | 0 => .warn
    | 1 => .info
    | 2 => .debug
    | _ => .trace

def finish (reading : Reading) : Except Refusal Arguments := do
  let reading ← reading.flush
  match reading.program with
  | none => throw .missingProgram
  | some program =>
      return {
        program
        maxSteps := reading.limit
        disassemble := reading.disassemble
        dumpState := reading.dumpState
        level := reading.level
      }

end Reading

def Arguments.parse (arguments : List String) : Except Refusal Arguments := do
  let reading ← arguments.foldlM Reading.accept Reading.start
  reading.finish

end StoredProgram.CommandLine
