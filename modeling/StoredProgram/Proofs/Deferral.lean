import StoredProgram.Proofs.Groups

/-!
Holding back makes no difference. What a group of arguments leaves stored, once nothing is held back any more, is what
its settings store at once, and either both are accepted or neither is.
-/

set_option autoImplicit false

namespace StoredProgram.CommandLine

namespace Reading

def stored (reading : Reading) : Stored where
  program := reading.program
  limit := reading.limit
  disassemble := reading.disassemble
  dumpState := reading.dumpState
  quiet := reading.quiet
  verbosity := reading.verbosity

-- What is stored once nothing is held back any more, if what is held back is accepted.
def settled (reading : Reading) : Option Stored :=
  reading.flush.toOption.map stored

def settledOf (result : Except Refusal Reading) : Option Stored :=
  result.toOption.bind settled

def Waits (reading : Reading) : Prop :=
  reading.pending = .limit none ∧ reading.separated = false

instance (reading : Reading) : Decidable reading.Waits :=
  inferInstanceAs (Decidable (_ ∧ _))

variable {reading after : Reading}

@[simp]
theorem settled_of_ok (reading : Reading) : settledOf (.ok reading) = reading.settled := rfl

@[simp]
theorem settled_of_error (refusal : Refusal) : settledOf (.error refusal) = none := rfl

section Flush

theorem store_limit_frame (text : String) (done : reading.storeLimit text = .ok after) :
    ∃ limit, after = { reading with limit := some limit } := by
  rw [storeLimit] at done
  repeat' split at done
  all_goals cases done
  exact ⟨_, rfl⟩

theorem store_limit_pending (text : String) (done : reading.storeLimit text = .ok after) :
    after.pending = reading.pending := by
  obtain ⟨limit, rfl⟩ := store_limit_frame text done
  rfl

theorem store_limit_stored (text : String) :
    (reading.storeLimit text).toOption.map stored = reading.stored.store (.limit text) := by
  cases limit : reading.limit with
  | some value => simp [storeLimit, Stored.store, stored, limit, Except.toOption]
  | none =>
      cases read : readLimit? text with
      | none => simp [storeLimit, Stored.store, stored, limit, read, Except.toOption]
      | some value => simp [storeLimit, Stored.store, stored, limit, read, Except.toOption]

theorem flush_pending (done : reading.flush = .ok after) : after.pending = .nothing := by
  rw [flush] at done
  split at done
  · cases done
    assumption
  · cases done
  · exact store_limit_pending _ done
  · split at done <;> cases done
    rfl

theorem flush_has_program (done : reading.flush = .ok after) : after.program.isSome = reading.hasProgram := by
  unfold hasProgram
  rw [flush] at done
  split at done
  · rename_i nothing
    cases done
    rw [nothing]
  · cases done
  · rename_i text held
    obtain ⟨limit, rfl⟩ := store_limit_frame text done
    rw [held]
  · rename_i path held
    split at done <;> cases done
    rw [held]
    rfl

theorem flush_of_waits (waits : reading.Waits) : reading.flush = .error .missingLimit := by
  rw [flush, waits.1]

theorem settled_eq (reading : Reading) :
    reading.settled =
      match reading.pending with
      | .nothing => some reading.stored
      | .limit none => none
      | .limit (some text) => reading.stored.store (.limit text)
      | .program path => if path = "" then none else some { reading.stored with program := some path } := by
  rw [settled, flush]
  cases reading.pending with
  | nothing => rfl
  | limit text =>
      cases text with
      | none => rfl
      | some text => exact store_limit_stored text
  | program path =>
      by_cases empty : path = ""
      · simp [empty, Except.toOption]
      · simp [empty, Except.toOption, stored]

theorem settled_of_nothing (nothing : reading.pending = .nothing) : reading.settled = some reading.stored := by
  rw [settled_eq, nothing]

end Flush

theorem settled_of_bind (result : Except Refusal Reading) (next : Reading → Except Refusal Reading)
    (store : Stored → Option Stored)
    (follows : ∀ after, result = .ok after → settledOf (next after) = after.settled.bind store) :
    settledOf (result.bind next) = (settledOf result).bind store := by
  cases result with
  | error refusal => rfl
  | ok after => exact follows after rfl

theorem settled_of_flush (next : Reading → Except Refusal Reading) (store : Stored → Option Stored)
    (follows : ∀ flushed, reading.flush = .ok flushed → settledOf (next flushed) = store flushed.stored) :
    settledOf (reading.flush.bind next) = reading.settled.bind store := by
  rw [settled]
  cases held : reading.flush with
  | error refusal => rfl
  | ok flushed => exact follows flushed held

theorem settled_unless (given : Bool) (refusal : Refusal) (nothing : after.pending = .nothing) :
    settledOf (if given then .error refusal else .ok after) = if given then none else some after.stored := by
  cases given with
  | true => rfl
  | false => exact settled_of_nothing nothing

theorem settled_set (given : Switch) :
    settledOf (reading.set given) = reading.settled.bind (·.store (.switch given)) := by
  apply settled_of_flush
  intro flushed held
  have nothing := flush_pending held
  cases given with
  | help => rfl
  | version => rfl
  | verbosity => exact settled_of_nothing nothing
  | quiet => exact settled_unless flushed.quiet _ nothing
  | disassemble => exact settled_unless flushed.disassemble _ nothing
  | dumpState => exact settled_unless flushed.dumpState _ nothing

theorem settled_letters (letters : List Char) (known : ∀ letter ∈ letters, letter = 'v' ∨ letter = 'q') :
    settledOf (letters.foldlM letter reading) =
      reading.settled.bind
        (·.storeAll (letters.map fun letter => .switch (if letter = 'v' then .verbosity else .quiet))) := by
  induction letters generalizing reading with
  | nil => exact (Option.bind_fun_some _).symm
  | cons first letters ih =>
      obtain ⟨here, others⟩ := List.forall_mem_cons.mp known
      have set : reading.letter first = reading.set (if first = 'v' then .verbosity else .quiet) := by
        rcases here with rfl | rfl <;> rfl
      have rest := settled_of_bind (reading.letter first) (fun after => letters.foldlM letter after) _
        fun after _ => ih others
      rw [set, settled_set, Option.bind_assoc] at rest
      rw [List.foldlM_cons, set]
      exact rest

theorem settled_joined_limit (text : String) :
    settledOf (reading.option limitName (some text)) = reading.settled.bind (·.store (.limit text)) := by
  unfold option
  rw [if_pos rfl]
  apply settled_of_flush
  intro flushed held
  change settledOf (flushed.storeLimit text) = _
  rw [← store_limit_stored]
  cases done : flushed.storeLimit text with
  | error refusal => rfl
  | ok after => exact settled_of_nothing ((store_limit_pending text done).trans (flush_pending held))

-- Only one plain argument is taken for the program, whether the other one is stored or still held back.
theorem settled_plain (text : String) (ready : ¬ reading.Waits) :
    settledOf (reading.plain text) = reading.settled.bind (·.store (.program text)) := by
  rw [plain, if_neg (show ¬ (reading.pending = .limit none ∧ reading.separated = false) from ready), settled]
  cases held : reading.flush with
  | error refusal => split <;> rfl
  | ok flushed =>
      have one := flush_has_program held
      cases named : flushed.program with
      | some path =>
          rw [named, Option.isSome_some] at one
          rw [if_pos one.symm]
          simp [Except.toOption, Stored.store, stored, named]
      | none =>
          rw [named, Option.isSome_none] at one
          rw [if_neg (Bool.eq_false_iff.mp one.symm)]
          change settled { flushed with pending := .program text } = flushed.stored.store (.program text)
          rw [settled_eq]
          simp [Stored.store, stored, named]

section Shapes

variable (argument : String)

theorem accept_option (name : String) (value : Option String) (unseparated : reading.separated = false)
    (shape : Shape.ofArgument argument = .option name value) :
    reading.accept argument = reading.option name value := by
  rw [accept, if_neg (Bool.eq_false_iff.mp unseparated), shape]

theorem accept_cluster (letters : List Char) (unseparated : reading.separated = false)
    (shape : Shape.ofArgument argument = .cluster letters) :
    reading.accept argument = letters.foldlM letter reading := by
  rw [accept, if_neg (Bool.eq_false_iff.mp unseparated), shape]

theorem accept_plain (unseparated : reading.separated = false) (shape : Shape.ofArgument argument = .plain) :
    reading.accept argument = reading.plain argument := by
  rw [accept, if_neg (Bool.eq_false_iff.mp unseparated), shape]

theorem accept_refused (waits : reading.Waits) (word : argument ≠ "--") (other : Shape.ofArgument argument ≠ .plain) :
    ∃ refusal, reading.accept argument = .error refusal := by
  have refuses := flush_of_waits waits
  have set (given : Switch) : reading.set given = .error .missingLimit := by
    rw [Reading.set, refuses]
    rfl
  cases shape : Shape.ofArgument argument with
  | separator => exact absurd ((shape_separator_iff argument).mp shape) word
  | plain => exact absurd shape other
  | option name value =>
      rw [accept_option argument name value waits.2 shape]
      unfold option
      split
      · rw [refuses]
        exact ⟨_, rfl⟩
      · split
        · exact ⟨_, rfl⟩
        · exact ⟨_, rfl⟩
        · exact ⟨_, set _⟩
  | cluster letters =>
      rw [accept_cluster argument letters waits.2 shape]
      obtain ⟨begun, -⟩ := argument_of_cluster argument letters shape
      obtain ⟨first, others, rfl⟩ := List.exists_cons_of_ne_nil begun
      rw [List.foldlM_cons, letter]
      cases Switch.ofLetter? first with
      | none => exact ⟨_, rfl⟩
      | some given =>
          dsimp only
          rw [set]
          exact ⟨_, rfl⟩

theorem single_argument : [argument].foldlM accept reading = reading.accept argument := by
  rw [List.foldlM_cons]
  exact bind_pure _

theorem accept_limit_name (unseparated : reading.separated = false) :
    reading.accept "--max-steps" =
      reading.flush.bind fun flushed => .ok { flushed with pending := .limit none } := by
  have shape : Shape.ofArgument "--max-steps" = .option limitName none := rfl
  rw [accept_option _ limitName none unseparated shape]
  unfold option
  rw [if_pos rfl]
  rfl

end Shapes

theorem unseparated_of_flush (unseparated : reading.separated = false) (held : reading.flush = .ok after) :
    after.separated = false :=
  (flush_takes held).separated.trans unseparated

theorem settled_limit (text : String) (unseparated : reading.separated = false) (word : text ≠ "--") :
    settledOf (["--max-steps", text].foldlM accept reading) = reading.settled.bind (·.store (.limit text)) := by
  have waiting (flushed : Reading) (held : reading.flush = .ok flushed) :
      settledOf ({ flushed with pending := .limit none }.accept text) = flushed.stored.store (.limit text) := by
    have still := unseparated_of_flush unseparated held
    have waits : Waits { flushed with pending := .limit none } := ⟨rfl, still⟩
    by_cases shape : Shape.ofArgument text = .plain
    · have taken : { flushed with pending := .limit none }.plain text =
          .ok { flushed with pending := .limit (some text) } := if_pos waits
      rw [accept_plain text waits.2 shape, taken, settled_of_ok, settled_eq]
      rfl
    · obtain ⟨refusal, refused⟩ := accept_refused text waits word shape
      have unread : readLimit? text = none := by
        rw [Option.eq_none_iff_forall_ne_some]
        exact fun value read => shape (plain_of_denotes ((read_limit_iff text value).mp read))
      rw [refused, settled_of_error]
      simp [Stored.store, unread]
  rw [List.foldlM_cons, accept_limit_name unseparated]
  simp only [single_argument]
  refine Eq.trans ?_ (settled_of_flush _ _ waiting)
  cases reading.flush <;> rfl

theorem settled_group (group : Group) (unseparated : reading.separated = false) (ready : ¬ reading.Waits)
    (words : "--" ∉ group.arguments) :
    settledOf (group.arguments.foldlM accept reading) = reading.settled.bind (·.storeAll group.settings) := by
  cases group with
  | limit text =>
      have word : text ≠ "--" := fun same => words (same ▸ by simp [Group.arguments])
      rw [Group.settings, Group.arguments, settled_limit text unseparated word]
      simp only [Stored.store_all_single]
  | joinedLimit text =>
      rw [Group.settings, Group.arguments, single_argument,
        accept_option _ limitName (some text) unseparated (shape_of_joined text), settled_joined_limit]
      simp only [Stored.store_all_single]
  | switch given lasting =>
      have shape := shape_of_name given
      have set : reading.option given.name none = reading.set given := by cases given <;> rfl
      rw [Group.settings, Group.arguments, single_argument, accept_option _ _ none unseparated shape, set, settled_set]
      simp only [Stored.store_all_single]
  | cluster letters begun known =>
      have shape := shape_of_letters letters begun known
      rw [Group.settings, Group.arguments, single_argument, accept_cluster _ letters unseparated shape]
      exact settled_letters letters known
  | program text shape =>
      rw [Group.settings, Group.arguments, single_argument,
        accept_plain text unseparated ((shape_plain_iff text).mpr shape), settled_plain text ready]
      simp only [Stored.store_all_single]

section Pending

theorem set_pending (given : Switch) (done : reading.set given = .ok after) : after.pending = .nothing := by
  obtain ⟨flushed, held, done⟩ := (Attempt.bind_eq_ok_iff _ _ _).mp done
  have nothing := flush_pending held
  cases given with
  | help => cases done
  | version => cases done
  | verbosity =>
      cases done
      exact nothing
  | quiet | disassemble | dumpState =>
      dsimp only at done
      split at done <;> cases done
      exact nothing

theorem letter_pending (first : Char) (done : reading.letter first = .ok after) : after.pending = .nothing := by
  rw [letter] at done
  split at done
  · exact set_pending _ done
  · cases done

theorem letters_pending (first : Char) (others : List Char) (done : (first :: others).foldlM letter reading = .ok after) :
    after.pending = .nothing := by
  induction others generalizing first reading with
  | nil =>
      obtain ⟨next, set, done⟩ := (Attempt.bind_eq_ok_iff _ _ _).mp done
      cases done
      exact letter_pending first set
  | cons second others ih =>
      obtain ⟨next, -, done⟩ := (Attempt.bind_eq_ok_iff _ _ _).mp done
      exact ih second done

theorem option_pending (name : String) (value : Option String) (done : reading.option name value = .ok after) :
    after.pending = .nothing ∨ name = limitName ∧ value = none := by
  unfold option at done
  split at done
  · rename_i limit
    obtain ⟨flushed, held, done⟩ := (Attempt.bind_eq_ok_iff _ _ _).mp done
    cases value with
    | none => exact .inr ⟨limit, rfl⟩
    | some text =>
        exact .inl ((store_limit_pending text done).trans (flush_pending held))
  · split at done
    · cases done
    · cases done
    · exact .inl (set_pending _ done)

theorem plain_pending (text : String) (done : reading.plain text = .ok after) : after.pending ≠ .limit none := by
  intro unread
  rw [plain] at done
  split at done
  · cases done
    cases unread
  · split at done
    · cases done
    · obtain ⟨flushed, held, done⟩ := (Attempt.bind_eq_ok_iff _ _ _).mp done
      cases done
      cases unread

theorem waits_of_accept (argument : String) (unseparated : reading.separated = false)
    (done : reading.accept argument = .ok after) (waits : after.Waits) : argument = "--max-steps" := by
  have unsettled : after.pending ≠ .nothing := by
    intro nothing
    cases waits.1.symm.trans nothing
  cases shape : Shape.ofArgument argument with
  | separator =>
      obtain rfl := (shape_separator_iff argument).mp shape
      rw [accept_separator unseparated] at done
      cases done
      cases waits.2
  | option name value =>
      rw [accept_option argument name value unseparated shape] at done
      rcases option_pending name value done with nothing | ⟨rfl, rfl⟩
      · exact absurd nothing unsettled
      · exact argument_of_option argument limitName none shape
  | cluster letters =>
      rw [accept_cluster argument letters unseparated shape] at done
      obtain ⟨first, others, rfl⟩ := List.exists_cons_of_ne_nil (argument_of_cluster argument letters shape).1
      exact absurd (letters_pending first others done) unsettled
  | plain =>
      rw [accept_plain argument unseparated shape] at done
      exact absurd waits.1 (plain_pending argument done)

end Pending

end Reading

end StoredProgram.CommandLine
