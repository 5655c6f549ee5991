import StoredProgram.Attempt
import StoredProgram.CommandLine.Arguments

set_option autoImplicit false

namespace StoredProgram.CommandLine

def Shape.switches : Shape → List Switch
  | .option name none => (Switch.ofName? name).toList
  | .cluster letters => letters.filterMap Switch.ofLetter?
  | _ => []

def switchesGiven (arguments : List String) : List Switch :=
  (arguments.takeWhile (· ≠ "--")).flatMap fun argument => (Shape.ofArgument argument).switches

theorem switches_given_separator (arguments : List String) : switchesGiven ("--" :: arguments) = [] := rfl

theorem switches_given_cons (argument : String) (arguments : List String) (word : argument ≠ "--") :
    switchesGiven (argument :: arguments) = (Shape.ofArgument argument).switches ++ switchesGiven arguments := by
  simp [switchesGiven, word]

theorem shape_separator_iff (argument : String) : Shape.ofArgument argument = .separator ↔ argument = "--" := by
  constructor
  · intro separator
    rw [Shape.ofArgument] at separator
    split at separator
    · rename_i hyphens
      exact String.toList_inj.mp hyphens
    all_goals cases separator
  · rintro rfl
    rfl

theorem limit_no_switch (value : Option String) : (Shape.option limitName value).switches = [] := by
  cases value with
  | none => decide
  | some text => rfl

structure Adds (switches : List Switch) (before after : Reading) : Prop where
  verbosity : after.verbosity = before.verbosity + switches.count .verbosity
  quiet : after.quiet = (before.quiet || switches.contains .quiet)
  disassemble : after.disassemble = (before.disassemble || switches.contains .disassemble)
  dumpState : after.dumpState = (before.dumpState || switches.contains .dumpState)

structure Takes (switches : List Switch) (before after : Reading) : Prop extends Adds switches before after where
  separated : after.separated = before.separated

namespace Reading

variable {reading after final : Reading}

theorem adds_trans {switches others : List Switch} (first : Adds switches reading after)
    (second : Adds others after final) : Adds (switches ++ others) reading final where
  verbosity := by rw [second.verbosity, first.verbosity, List.count_append, Nat.add_assoc]
  quiet := by rw [second.quiet, first.quiet, List.contains_append, Bool.or_assoc]
  disassemble := by rw [second.disassemble, first.disassemble, List.contains_append, Bool.or_assoc]
  dumpState := by rw [second.dumpState, first.dumpState, List.contains_append, Bool.or_assoc]

theorem takes_trans {switches others : List Switch} (first : Takes switches reading after)
    (second : Takes others after final) : Takes (switches ++ others) reading final :=
  ⟨adds_trans first.toAdds second.toAdds, second.separated.trans first.separated⟩

theorem takes_none (reading : Reading) (pending : Pending) (program : Option String) (limit : Option Nat) :
    Takes [] reading { reading with pending, program, limit } := by
  refine ⟨⟨?_, ?_, ?_, ?_⟩, rfl⟩ <;> simp

theorem store_limit_takes (text : String) (done : reading.storeLimit text = .ok after) : Takes [] reading after := by
  rw [storeLimit] at done
  repeat' split at done
  all_goals cases done
  exact takes_none _ _ _ _

theorem flush_takes (done : reading.flush = .ok after) : Takes [] reading after := by
  rw [flush] at done
  split at done
  · cases done
    exact takes_none _ _ _ _
  · cases done
  · exact takes_trans (takes_none reading .nothing reading.program reading.limit) (store_limit_takes _ done)
  · split at done <;> cases done
    exact takes_none _ _ _ _

-- Setting a switch takes down that switch, for what is set already is set again only where it may be raised.
theorem set_takes (switch : Switch) (done : reading.set switch = .ok after) : Takes [switch] reading after := by
  obtain ⟨flushed, held, done⟩ := (Attempt.bind_eq_ok_iff _ _ _).mp done
  refine takes_trans (flush_takes held) ?_
  cases switch
  case help => cases done
  case version => cases done
  case verbosity =>
    cases done
    refine ⟨⟨?_, ?_, ?_, ?_⟩, rfl⟩ <;> simp
  all_goals
    dsimp only at done
    split at done
    · cases done
    · cases done
      refine ⟨⟨?_, ?_, ?_, ?_⟩, rfl⟩ <;> simp

theorem letters_take (letters : List Char) (done : letters.foldlM letter reading = .ok after) :
    Takes (letters.filterMap Switch.ofLetter?) reading after := by
  induction letters generalizing reading with
  | nil =>
      cases done
      exact takes_none _ _ _ _
  | cons first letters ih =>
      obtain ⟨next, set, done⟩ := (Attempt.bind_eq_ok_iff _ _ _).mp done
      rw [letter] at set
      cases named : Switch.ofLetter? first with
      | none =>
          rw [named] at set
          cases set
      | some switch =>
          rw [named] at set
          rw [List.filterMap_cons_some named]
          exact takes_trans (set_takes switch set) (ih done)

theorem option_takes (name : String) (value : Option String) (done : reading.option name value = .ok after) :
    Takes (Shape.option name value).switches reading after := by
  unfold option at done
  split at done
  · rename_i limit
    rw [limit, limit_no_switch]
    obtain ⟨flushed, held, done⟩ := (Attempt.bind_eq_ok_iff _ _ _).mp done
    refine takes_trans (flush_takes held) ?_
    cases value with
    | none =>
        cases done
        exact takes_none _ _ _ _
    | some text => exact store_limit_takes text done
  · cases named : Switch.ofName? name with
    | none =>
        rw [named] at done
        cases done
    | some switch =>
        rw [named] at done
        cases value with
        | none =>
            rw [Shape.switches, named]
            exact set_takes switch done
        | some text => cases done

theorem plain_takes (text : String) (done : reading.plain text = .ok after) : Takes [] reading after := by
  rw [plain] at done
  split at done
  · cases done
    exact takes_none _ _ _ _
  · split at done
    · cases done
    · obtain ⟨flushed, held, done⟩ := (Attempt.bind_eq_ok_iff _ _ _).mp done
      refine takes_trans (flush_takes held) ?_
      cases done
      exact takes_none _ _ _ _

theorem accept_takes (argument : String) (word : argument ≠ "--") (unseparated : reading.separated = false)
    (done : reading.accept argument = .ok after) : Takes (Shape.ofArgument argument).switches reading after := by
  rw [accept, if_neg (Bool.eq_false_iff.mp unseparated)] at done
  cases shape : Shape.ofArgument argument with
  | separator => exact absurd ((shape_separator_iff argument).mp shape) word
  | option name value =>
      rw [shape] at done
      exact option_takes name value done
  | cluster letters =>
      rw [shape] at done
      exact letters_take letters done
  | plain =>
      rw [shape] at done
      exact plain_takes argument done

theorem accept_separator (unseparated : reading.separated = false) :
    reading.accept "--" = .ok { reading with separated := true } := by
  rw [accept, if_neg (Bool.eq_false_iff.mp unseparated)]
  rfl

theorem separated_takes (arguments : List String) (separated : reading.separated = true)
    (done : arguments.foldlM accept reading = .ok after) : Takes [] reading after := by
  induction arguments generalizing reading with
  | nil =>
      cases done
      exact takes_none _ _ _ _
  | cons argument arguments ih =>
      obtain ⟨next, accepted, done⟩ := (Attempt.bind_eq_ok_iff _ _ _).mp done
      rw [accept, if_pos separated] at accepted
      have first := plain_takes argument accepted
      exact takes_trans first (ih (first.separated.trans separated) done)

theorem arguments_add (arguments : List String) (unseparated : reading.separated = false)
    (done : arguments.foldlM accept reading = .ok after) : Adds (switchesGiven arguments) reading after := by
  induction arguments generalizing reading with
  | nil =>
      cases done
      exact (takes_none _ _ _ _).toAdds
  | cons argument arguments ih =>
      obtain ⟨next, accepted, done⟩ := (Attempt.bind_eq_ok_iff _ _ _).mp done
      by_cases separator : argument = "--"
      · rw [separator, accept_separator unseparated] at accepted
        cases accepted
        have behind := separated_takes arguments rfl done
        rw [separator, switches_given_separator]
        exact ⟨behind.verbosity, behind.quiet, behind.disassemble, behind.dumpState⟩
      · rw [switches_given_cons argument arguments separator]
        have first := accept_takes argument separator unseparated accepted
        exact adds_trans first.toAdds (ih (first.separated.trans unseparated) done)

end Reading

def levelOf (switches : List Switch) : Log.Level :=
  if .quiet ∈ switches then .off
  else
    match switches.count .verbosity with
    | 0 => .warn
    | 1 => .info
    | 2 => .debug
    | _ => .trace

theorem level_of_many (switches : List Switch) (loud : .quiet ∉ switches) (many : 3 ≤ switches.count .verbosity) :
    levelOf switches = .trace := by
  obtain ⟨more, count⟩ := Nat.exists_eq_add_of_le' many
  rw [levelOf, if_neg loud, count]
  rfl

theorem level_of_added (switches : List Switch) (reading : Reading) (added : Adds switches Reading.start reading) :
    reading.level = levelOf switches := by
  have verbosity : reading.verbosity = switches.count .verbosity := added.verbosity.trans (Nat.zero_add _)
  have quiet : reading.quiet = switches.contains .quiet := added.quiet
  rw [Reading.level, verbosity, quiet]
  by_cases muted : .quiet ∈ switches
  · exact (if_pos (List.contains_iff_mem.mpr muted)).trans (if_pos muted).symm
  · exact (if_neg (mt List.contains_iff_mem.mp muted)).trans (if_neg muted).symm

theorem switches_of_parsed (arguments : List String) (request : Arguments)
    (accepted : Arguments.parse arguments = .ok request) :
    request.level = levelOf (switchesGiven arguments) ∧
      request.disassemble = (switchesGiven arguments).contains .disassemble ∧
      request.dumpState = (switchesGiven arguments).contains .dumpState := by
  obtain ⟨reading, read, finished⟩ := (Attempt.bind_eq_ok_iff _ _ _).mp accepted
  obtain ⟨flushed, held, finished⟩ := (Attempt.bind_eq_ok_iff _ _ _).mp finished
  have added := Reading.adds_trans (Reading.arguments_add arguments rfl read) (Reading.flush_takes held).toAdds
  rw [List.append_nil] at added
  cases named : flushed.program with
  | none =>
      rw [named] at finished
      cases finished
  | some program =>
      rw [named] at finished
      cases finished
      exact ⟨level_of_added _ flushed added, added.disassemble, added.dumpState⟩

end StoredProgram.CommandLine
