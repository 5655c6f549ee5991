import StoredProgram.Alu
import StoredProgram.Attempt
import StoredProgram.Memory
import StoredProgram.Opcode
import StoredProgram.Registers

set_option autoImplicit false

namespace StoredProgram

structure Machine where
  memory : Memory
  registers : Registers
  pc : Nat
  flag : Flag
  steps : Nat
deriving DecidableEq, Repr

namespace Machine

abbrev Action := Attempt Fault Machine Unit

def fresh : Machine where
  memory := Memory.zeroed
  registers := Registers.zeroed
  pc := 0
  flag := .equal
  steps := 0

def load (image : List Byte) : Attempt LoadError Machine Unit := do
  let machine ← get
  let memory ← machine.memory.load image
  set { machine with memory }

def withProgram (image : List Byte) : Except LoadError Machine :=
  match (load image).run fresh with
  | .ok () machine => .ok machine
  | .error error _ => .error error

def skip (cells : Nat) : Action :=
  modify fun machine => { machine with pc := machine.pc + cells }

@[simp] theorem run_skip (cells : Nat) (machine : Machine) :
    (skip cells).run machine = .ok () { machine with pc := machine.pc + cells } := rfl

def loadImmediate : Action := do
  let machine ← get
  let register ← machine.memory.read (machine.pc + 1)
  let value ← machine.memory.read (machine.pc + 2)
  let registers ← machine.registers.set register.toNat value
  set { machine with registers }
  skip Opcode.ldi.size

def compare : Action := do
  let machine ← get
  let first ← machine.registers.get 0
  let second ← machine.registers.get 1
  let flag ← Alu.run .cmp first second
  set { machine with flag }
  skip Opcode.cmp.size

def jump : Action := do
  let machine ← get
  let target ← machine.registers.get (machine.pc + 1)
  set { machine with pc := target.toNat }
  skip Opcode.jmp.size

def jumpIfEqual : Action := do
  let machine ← get
  if machine.flag = .equal then
    let target ← machine.registers.get (machine.pc + 1)
    set { machine with pc := target.toNat }
  skip Opcode.jeq.size

-- Jumps where the flag is `clear`; the register of the target is read in any case.
def jumpIfClear : Action := do
  let machine ← get
  let target ← machine.registers.get (machine.pc + 1)
  if machine.flag = .clear then
    set { machine with pc := target.toNat }
  skip Opcode.jne.size

def operate : Opcode → Action
  | .ldi => loadImmediate
  | .cmp => compare
  | .jmp => jump
  | .jeq => jumpIfEqual
  | .jne => jumpIfClear

def step : Action := do
  let machine ← get
  let byte ← machine.memory.read machine.pc
  match Opcode.ofByte? byte with
  | none => throw (.unknownOpcode byte (.memory machine.pc))
  | some opcode =>
      operate opcode
      modify fun machine => { machine with steps := machine.steps + 1 }

end Machine

end StoredProgram
