import Mathlib.Data.List.Induction
import StoredProgram.Proofs.Switches

set_option autoImplicit false

namespace StoredProgram.CommandLine

def Denotes (text : String) (value : Nat) : Prop :=
  ∃ sign digits, text.toList = sign ++ digits ∧ (sign = [] ∨ sign = ['+']) ∧ digits ≠ [] ∧
    (∀ digit ∈ digits, digit.isDigit) ∧ value = Nat.ofDigitChars 10 digits 0 ∧ value < wordCount

theorem plus_no_digit : '+'.isDigit = false := by decide

theorem read_limit_iff (text : String) (value : Nat) : readLimit? text = some value ↔ Denotes text value := by
  have read (digits : List Char) :
      (if digits ≠ [] ∧ digits.all Char.isDigit ∧ Nat.ofDigitChars 10 digits 0 < wordCount then
          some (Nat.ofDigitChars 10 digits 0) else none) = some value ↔
        digits ≠ [] ∧ (∀ digit ∈ digits, digit.isDigit) ∧ value = Nat.ofDigitChars 10 digits 0 ∧
          value < wordCount := by
    rw [Option.ite_none_right_eq_some, List.all_eq_true, Option.some.injEq]
    constructor
    · rintro ⟨⟨some, digit, small⟩, rfl⟩
      exact ⟨some, digit, rfl, small⟩
    · rintro ⟨some, digit, rfl, small⟩
      exact ⟨⟨some, digit, small⟩, rfl⟩
  unfold readLimit? Denotes
  dsimp only
  split
  · rename_i digits signed
    rw [read, signed]
    constructor
    · intro written
      exact ⟨['+'], digits, rfl, .inr rfl, written⟩
    · rintro ⟨sign, others, parts, rfl | rfl, written⟩
      · rw [List.nil_append] at parts
        have first := written.2.1 '+' (parts ▸ List.mem_cons_self)
        rw [plus_no_digit] at first
        cases first
      · rwa [(List.cons.inj parts).2]
  · rename_i unsigned
    rw [read]
    constructor
    · intro written
      exact ⟨[], text.toList, rfl, .inl rfl, written⟩
    · rintro ⟨sign, others, parts, rfl | rfl, written⟩
      · rwa [parts]
      · exact absurd parts (unsigned others)

inductive Setting where
  | program (text : String)
  | limit (text : String)
  | switch (given : Switch)
deriving DecidableEq, Repr

namespace Setting

def program? : Setting → Option String
  | .program text => some text
  | _ => none

def limit? : Setting → Option String
  | .limit text => some text
  | _ => none

def switch? : Setting → Option Switch
  | .switch given => some given
  | _ => none

end Setting

structure Stored where
  program : Option String
  limit : Option Nat
  disassemble : Bool
  dumpState : Bool
  quiet : Bool
  verbosity : Nat
deriving DecidableEq, Repr

namespace Stored

def nothing : Stored where
  program := none
  limit := none
  disassemble := false
  dumpState := false
  quiet := false
  verbosity := 0

def store (stored : Stored) : Setting → Option Stored
  | .program text =>
      if stored.program = none ∧ text ≠ "" then some { stored with program := some text } else none
  | .limit text =>
      if stored.limit = none then (readLimit? text).map fun limit => { stored with limit := some limit } else none
  | .switch .verbosity => some { stored with verbosity := stored.verbosity + 1 }
  | .switch .quiet => if stored.quiet then none else some { stored with quiet := true }
  | .switch .disassemble => if stored.disassemble then none else some { stored with disassemble := true }
  | .switch .dumpState => if stored.dumpState then none else some { stored with dumpState := true }
  | .switch .help => none
  | .switch .version => none

def storeAll (stored : Stored) (settings : List Setting) : Option Stored :=
  settings.foldlM store stored

theorem store_all_append (stored : Stored) (first second : List Setting) :
    stored.storeAll (first ++ second) = (stored.storeAll first).bind (·.storeAll second) :=
  List.foldlM_append

theorem store_all_single (stored : Stored) (setting : Setting) : stored.storeAll [setting] = stored.store setting := by
  simp [storeAll]

end Stored

section Given

variable (settings : List Setting)

def programs : List String :=
  settings.filterMap Setting.program?

def limits : List String :=
  settings.filterMap Setting.limit?

def switches : List Switch :=
  settings.filterMap Setting.switch?

def Sole (fine : String → Prop) (texts : List String) : Prop :=
  texts.length ≤ 1 ∧ ∀ text ∈ texts, fine text

theorem Sole.alone {fine : String → Prop} {text : String} {others : List String} (sole : Sole fine (text :: others)) :
    others = [] :=
  List.length_eq_zero_iff.mp (Nat.le_zero.mp (Nat.le_of_succ_le_succ sole.1))

def Lasting (given : List Switch) : Prop :=
  (∀ switch ∈ [.disassemble, .dumpState, .quiet], given.count switch ≤ 1) ∧ .help ∉ given ∧ .version ∉ given

structure Acceptable : Prop where
  program : Sole (· ≠ "") (programs settings)
  limit : Sole (fun text => ∃ value, Denotes text value) (limits settings)
  switches : Lasting (switches settings)

def Admits : Setting → Prop
  | .program text => programs settings = [] ∧ text ≠ ""
  | .limit text => limits settings = [] ∧ ∃ value, Denotes text value
  | .switch given => (given ≠ .verbosity → given ∉ switches settings) ∧ given ≠ .help ∧ given ≠ .version

def tally : Stored where
  program := (programs settings).head?
  limit := (limits settings).head?.bind readLimit?
  disassemble := (switches settings).contains .disassemble
  dumpState := (switches settings).contains .dumpState
  quiet := (switches settings).contains .quiet
  verbosity := (switches settings).count .verbosity

end Given

section Append

variable (settings : List Setting) (setting : Setting)

theorem programs_append : programs (settings ++ [setting]) = programs settings ++ setting.program?.toList := by
  cases setting <;> simp [programs, Setting.program?]

theorem limits_append : limits (settings ++ [setting]) = limits settings ++ setting.limit?.toList := by
  cases setting <;> simp [limits, Setting.limit?]

theorem switches_append : switches (settings ++ [setting]) = switches settings ++ setting.switch?.toList := by
  cases setting <;> simp [switches, Setting.switch?]

theorem sole_append (fine : String → Prop) (texts : List String) (text : String) :
    Sole fine (texts ++ [text]) ↔ Sole fine texts ∧ texts = [] ∧ fine text := by
  constructor
  · rintro ⟨few, all⟩
    rw [List.length_append, List.length_singleton] at few
    obtain rfl : texts = [] := List.length_eq_zero_iff.mp (Nat.le_zero.mp (Nat.le_of_succ_le_succ few))
    exact ⟨⟨Nat.zero_le 1, List.forall_mem_nil _⟩, rfl, all text (List.mem_singleton.mpr rfl)⟩
  · rintro ⟨-, rfl, good⟩
    exact ⟨Nat.le_refl 1, List.forall_mem_singleton.mpr good⟩

theorem lasting_append (given : List Switch) (switch : Switch) :
    Lasting (given ++ [switch]) ↔
      Lasting given ∧ (switch ≠ .verbosity → switch ∉ given) ∧ switch ≠ .help ∧ switch ≠ .version := by
  cases switch <;> simp [Lasting, List.count_append] <;> grind

theorem acceptable_iff :
    Acceptable settings ↔ Sole (· ≠ "") (programs settings) ∧
      Sole (fun text => ∃ value, Denotes text value) (limits settings) ∧ Lasting (switches settings) :=
  ⟨fun ⟨program, limit, switches⟩ => ⟨program, limit, switches⟩,
    fun ⟨program, limit, switches⟩ => ⟨program, limit, switches⟩⟩

theorem acceptable_append : Acceptable (settings ++ [setting]) ↔ Acceptable settings ∧ Admits settings setting := by
  rw [acceptable_iff, acceptable_iff, programs_append, limits_append, switches_append]
  cases setting <;>
    simp [Admits, Setting.program?, Setting.limit?, Setting.switch?, sole_append, lasting_append] <;> grind

variable {settings}

theorem tally_program (text : String) (first : programs settings = []) :
    tally (settings ++ [.program text]) = { tally settings with program := some text } := by
  simp [tally, programs_append, limits_append, switches_append, Setting.program?, Setting.limit?, Setting.switch?, first]

theorem tally_limit (text : String) (value : Nat) (first : limits settings = []) (read : readLimit? text = some value) :
    tally (settings ++ [.limit text]) = { tally settings with limit := some value } := by
  simp [tally, programs_append, limits_append, switches_append, Setting.program?, Setting.limit?, Setting.switch?, first,
    read]

theorem tally_switch (given : Switch) :
    tally (settings ++ [.switch given]) =
      { tally settings with
        disassemble := (tally settings).disassemble || given = .disassemble
        dumpState := (tally settings).dumpState || given = .dumpState
        quiet := (tally settings).quiet || given = .quiet
        verbosity := (tally settings).verbosity + if given = .verbosity then 1 else 0 } := by
  cases given <;>
    simp [tally, programs_append, limits_append, switches_append, Setting.program?, Setting.limit?, Setting.switch?]

theorem tally_limit_eq_none_iff (acceptable : Acceptable settings) :
    (tally settings).limit = none ↔ limits settings = [] := by
  rw [tally, Option.bind_eq_none_iff]
  constructor
  · intro unread
    cases given : limits settings with
    | nil => rfl
    | cons text others =>
        obtain ⟨value, written⟩ := acceptable.limit.2 text (by rw [given]; exact List.mem_cons_self)
        have read := (read_limit_iff text value).mpr written
        rw [unread text (by rw [given]; rfl)] at read
        cases read
  · intro none text given
    rw [none] at given
    cases given

theorem store_tally (acceptable : Acceptable settings) (setting : Setting) (after : Stored) :
    (tally settings).store setting = some after ↔ Admits settings setting ∧ after = tally (settings ++ [setting]) := by
  cases setting with
  | program text =>
      have first : (tally settings).program = none ↔ programs settings = [] := List.head?_eq_none_iff
      rw [Stored.store, Option.ite_none_right_eq_some, Option.some.injEq, first]
      refine and_congr_right fun admits => ?_
      rw [tally_program text admits.1]
      exact eq_comm
  | limit text =>
      rw [Stored.store, Option.ite_none_right_eq_some, Option.map_eq_some_iff, tally_limit_eq_none_iff acceptable]
      constructor
      · rintro ⟨first, value, read, rfl⟩
        exact ⟨⟨first, value, (read_limit_iff text value).mp read⟩, (tally_limit text value first read).symm⟩
      · rintro ⟨⟨first, value, written⟩, rfl⟩
        have read := (read_limit_iff text value).mpr written
        exact ⟨first, value, read, (tally_limit text value first read).symm⟩
  | switch given =>
      rw [tally_switch]
      cases given <;> simp [Stored.store, Admits, tally, @eq_comm _ after]

end Append

theorem acceptable_nil : Acceptable [] where
  program := ⟨Nat.zero_le 1, List.forall_mem_nil _⟩
  limit := ⟨Nat.zero_le 1, List.forall_mem_nil _⟩
  switches := by simp [Lasting, switches]

theorem store_all_eq_some_iff (settings : List Setting) (stored : Stored) :
    Stored.nothing.storeAll settings = some stored ↔ Acceptable settings ∧ stored = tally settings := by
  induction settings using List.reverseRecOn generalizing stored with
  | nil =>
      constructor
      · rintro ⟨rfl⟩
        exact ⟨acceptable_nil, rfl⟩
      · rintro ⟨-, rfl⟩
        rfl
  | append_singleton settings setting ih =>
      rw [Stored.store_all_append, Option.bind_eq_some_iff, acceptable_append]
      constructor
      · rintro ⟨before, all, last⟩
        obtain ⟨acceptable, rfl⟩ := (ih before).mp all
        rw [Stored.store_all_single, store_tally acceptable] at last
        exact ⟨⟨acceptable, last.1⟩, last.2⟩
      · rintro ⟨⟨acceptable, admits⟩, same⟩
        refine ⟨tally settings, (ih _).mpr ⟨acceptable, rfl⟩, ?_⟩
        rw [Stored.store_all_single, store_tally acceptable]
        exact ⟨admits, same⟩

end StoredProgram.CommandLine
