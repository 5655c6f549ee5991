import StoredProgram.Proofs.Deferral

set_option autoImplicit false

namespace StoredProgram.CommandLine

def front (arguments : List String) : List String :=
  arguments.takeWhile (· ≠ "--")

def behind (arguments : List String) : List String :=
  (arguments.dropWhile (· ≠ "--")).tail

theorem rest_cases (arguments : List String) :
    arguments.dropWhile (· ≠ "--") = [] ∧ behind arguments = [] ∨
      arguments.dropWhile (· ≠ "--") = "--" :: behind arguments := by
  have stops := List.head?_dropWhile_not (· ≠ "--") arguments
  rw [behind]
  cases rest : arguments.dropWhile (· ≠ "--") with
  | nil => exact .inl ⟨rfl, rfl⟩
  | cons separator plain =>
      rw [rest] at stops
      obtain rfl : separator = "--" := by simpa using stops
      exact .inr rfl

-- Behind the separator every argument is a program, whatever it looks like.
def settingsGiven (groups : List Group) (plain : List String) : List Setting :=
  groups.flatMap Group.settings ++ plain.map .program

namespace Reading

variable {reading after : Reading}

section Lines

theorem settled_behind (arguments : List String) (separated : reading.separated = true) :
    settledOf (arguments.foldlM accept reading) =
      reading.settled.bind (·.storeAll (arguments.map .program)) := by
  induction arguments generalizing reading with
  | nil => exact (Option.bind_fun_some _).symm
  | cons argument arguments ih =>
      have ready : ¬ reading.Waits := by
        intro waits
        exact Bool.false_ne_true (waits.2.symm.trans separated)
      have accepts : reading.accept argument = reading.plain argument := if_pos separated
      have rest := settled_of_bind (reading.plain argument) (fun next => arguments.foldlM accept next) _
        fun next done => ih ((plain_takes argument done).separated.trans separated)
      rw [settled_plain argument ready, Option.bind_assoc] at rest
      rw [List.foldlM_cons, accepts]
      exact rest

theorem settled_separated (reading : Reading) : settled { reading with separated := true } = reading.settled := by
  rw [settled_eq, settled_eq]
  rfl

theorem settled_rest (arguments : List String) (unseparated : reading.separated = false) :
    settledOf ((arguments.dropWhile (· ≠ "--")).foldlM accept reading) =
      reading.settled.bind (·.storeAll ((behind arguments).map .program)) := by
  rcases rest_cases arguments with ⟨rest, nothing⟩ | rest
  · rw [rest, nothing]
    exact (Option.bind_fun_some _).symm
  · rw [rest, List.foldlM_cons, accept_separator unseparated]
    change settledOf ((behind arguments).foldlM accept { reading with separated := true }) = _
    rw [settled_behind (behind arguments) rfl, settled_separated]

theorem unseparated_of_words (arguments : List String) (words : "--" ∉ arguments)
    (unseparated : reading.separated = false) (done : arguments.foldlM accept reading = .ok after) :
    after.separated = false := by
  induction arguments generalizing reading with
  | nil =>
      cases done
      exact unseparated
  | cons argument arguments ih =>
      rw [List.mem_cons, not_or] at words
      obtain ⟨next, accepted, done⟩ := (Attempt.bind_eq_ok_iff _ _ _).mp done
      have first := accept_takes argument (Ne.symm words.1) unseparated accepted
      exact ih words.2 (first.separated.trans unseparated) done

end Lines

section Groups

theorem ready_of_accept (argument : String) (unseparated : reading.separated = false)
    (other : Shape.ofArgument argument ≠ .option limitName none) (done : reading.accept argument = .ok after) :
    ¬ after.Waits := by
  intro waits
  rw [waits_of_accept argument unseparated done waits] at other
  exact other rfl

theorem ready_of_group (group : Group) (unseparated : reading.separated = false) (words : "--" ∉ group.arguments)
    (done : group.arguments.foldlM accept reading = .ok after) : ¬ after.Waits := by
  cases group with
  | limit text =>
      obtain ⟨waiting, named, done⟩ := (Attempt.bind_eq_ok_iff _ _ _).mp done
      rw [accept_limit_name unseparated] at named
      obtain ⟨flushed, held, same⟩ := (Attempt.bind_eq_ok_iff _ _ _).mp named
      cases same
      have still := unseparated_of_flush unseparated held
      have waits : Waits { flushed with pending := .limit none } := ⟨rfl, still⟩
      have word : text ≠ "--" := fun same => words (same ▸ by simp [Group.arguments])
      rw [single_argument] at done
      refine ready_of_accept text waits.2 (fun shape => ?_) done
      have other : Shape.ofArgument text ≠ .plain := fun plain => by cases shape.symm.trans plain
      obtain ⟨refusal, refused⟩ := accept_refused text waits word other
      cases refused.symm.trans done
  | joinedLimit text =>
      rw [Group.arguments, single_argument] at done
      refine ready_of_accept _ unseparated (fun shape => ?_) done
      cases (shape_of_joined text).symm.trans shape
  | switch given lasting =>
      rw [Group.arguments, single_argument] at done
      refine ready_of_accept _ unseparated ?_ done
      rw [shape_of_name]
      cases given <;> decide
  | cluster letters begun known =>
      rw [Group.arguments, single_argument] at done
      refine ready_of_accept _ unseparated (fun shape => ?_) done
      cases (shape_of_letters letters begun known).symm.trans shape
  | program text plain =>
      rw [Group.arguments, single_argument] at done
      refine ready_of_accept _ unseparated (fun shape => ?_) done
      cases ((shape_plain_iff text).mpr plain).symm.trans shape

theorem settled_groups (groups : List Group) (unseparated : reading.separated = false) (ready : ¬ reading.Waits)
    (words : "--" ∉ groups.flatMap Group.arguments) :
    settledOf ((groups.flatMap Group.arguments).foldlM accept reading) =
      reading.settled.bind (·.storeAll (groups.flatMap Group.settings)) := by
  induction groups generalizing reading with
  | nil => exact (Option.bind_fun_some _).symm
  | cons group groups ih =>
      rw [List.flatMap_cons, List.mem_append, not_or] at words
      have rest := settled_of_bind (group.arguments.foldlM accept reading)
        (fun next => (groups.flatMap Group.arguments).foldlM accept next) _
        fun next done => ih (unseparated_of_words _ words.1 unseparated done)
          (ready_of_group group unseparated words.1 done) words.2
      rw [settled_group group unseparated ready words.1, Option.bind_assoc] at rest
      rw [List.flatMap_cons, List.flatMap_cons, List.foldlM_append]
      simp only [Stored.store_all_append]
      exact rest

end Groups

section Splitting

theorem lasting_of_set (given : Switch) (done : reading.set given = .ok after) : given ≠ .help ∧ given ≠ .version := by
  obtain ⟨flushed, -, done⟩ := (Attempt.bind_eq_ok_iff _ _ _).mp done
  constructor
  · rintro rfl
    cases done
  · rintro rfl
    cases done

theorem known_of_letter (first : Char) (done : reading.letter first = .ok after) : first = 'v' ∨ first = 'q' := by
  rw [letter] at done
  split at done
  · rename_i given named
    obtain ⟨notHelp, notVersion⟩ := lasting_of_set given done
    rw [Switch.ofLetter?.eq_def] at named
    split at named
    · exact .inl rfl
    · exact .inr rfl
    · cases named
      exact absurd rfl notHelp
    · cases named
      exact absurd rfl notVersion
    · cases named
  · cases done

theorem known_of_letters (letters : List Char) (done : letters.foldlM letter reading = .ok after) :
    ∀ letter ∈ letters, letter = 'v' ∨ letter = 'q' := by
  induction letters generalizing reading with
  | nil => exact List.forall_mem_nil _
  | cons first letters ih =>
      obtain ⟨next, set, done⟩ := (Attempt.bind_eq_ok_iff _ _ _).mp done
      exact List.forall_mem_cons.mpr ⟨known_of_letter first set, ih done⟩

theorem name_of_switch (name : String) (given : Switch) (named : Switch.ofName? name = some given) :
    name = given.name := by
  have holds := List.find?_some named
  exact (of_decide_eq_true holds).symm

theorem group_of_accept (argument : String) (unseparated : reading.separated = false) (word : argument ≠ "--")
    (other : argument ≠ "--max-steps") (done : reading.accept argument = .ok after) :
    ∃ group : Group, group.arguments = [argument] := by
  cases shape : Shape.ofArgument argument with
  | separator => exact absurd ((shape_separator_iff argument).mp shape) word
  | option name value =>
      have whole := argument_of_option argument name value shape
      rw [accept_option argument name value unseparated shape] at done
      unfold option at done
      split at done
      · rename_i limit
        cases value with
        | none =>
            rw [limit] at whole
            exact absurd whole other
        | some text =>
            refine ⟨.joinedLimit text, ?_⟩
            rw [whole, limit, Option.elim_some, ← String.append_assoc, ← String.append_assoc]
            rfl
      · split at done
        · cases done
        · cases done
        · rename_i given named
          refine ⟨.switch given (lasting_of_set given done), ?_⟩
          rw [Group.arguments, whole, name_of_switch name given named, Option.elim_none, String.append_empty]
  | cluster letters =>
      obtain ⟨begun, whole⟩ := argument_of_cluster argument letters shape
      rw [accept_cluster argument letters unseparated shape] at done
      exact ⟨.cluster letters begun (known_of_letters letters done), by rw [Group.arguments, whole]⟩
  | plain => exact ⟨.program argument ((shape_plain_iff argument).mp shape), rfl⟩

-- The argument that a reading which waits for a limit has read of its group.
def awaited (reading : Reading) : List String :=
  if reading.Waits then ["--max-steps"] else []

theorem groups_of_accepted (arguments : List String) (words : "--" ∉ arguments)
    (unseparated : reading.separated = false) (done : arguments.foldlM accept reading = .ok after)
    (ready : ¬ after.Waits) : ∃ groups : List Group, reading.awaited ++ arguments = groups.flatMap Group.arguments := by
  induction arguments generalizing reading with
  | nil =>
      cases done
      exact ⟨[], by rw [awaited, if_neg ready]; rfl⟩
  | cons argument arguments ih =>
      rw [List.mem_cons, not_or] at words
      obtain ⟨next, accepted, done⟩ := (Attempt.bind_eq_ok_iff _ _ _).mp done
      have still : next.separated = false :=
        (accept_takes argument (Ne.symm words.1) unseparated accepted).separated.trans unseparated
      obtain ⟨groups, parts⟩ := ih words.2 still done
      by_cases waits : reading.Waits
      · have shape : Shape.ofArgument argument = .plain := by
          by_contra other
          obtain ⟨refusal, refused⟩ := accept_refused argument waits (Ne.symm words.1) other
          rw [refused] at accepted
          cases accepted
        rw [accept_plain argument unseparated shape] at accepted
        rw [awaited, if_neg fun waits => plain_pending argument accepted waits.1] at parts
        exact ⟨.limit argument :: groups, by rw [awaited, if_pos waits, List.flatMap_cons, ← parts]; rfl⟩
      · rw [awaited, if_neg waits]
        by_cases name : argument = "--max-steps"
        · subst name
          rw [accept_limit_name unseparated] at accepted
          obtain ⟨flushed, held, same⟩ := (Attempt.bind_eq_ok_iff _ _ _).mp accepted
          cases same
          exact ⟨groups, by rw [← parts, awaited, if_pos ⟨rfl, still⟩]; rfl⟩
        · obtain ⟨group, single⟩ := group_of_accept argument unseparated (Ne.symm words.1) name accepted
          rw [awaited, if_neg fun waits => name (waits_of_accept argument unseparated accepted waits)] at parts
          exact ⟨group :: groups, by rw [List.flatMap_cons, single, ← parts]; rfl⟩

end Splitting

end Reading

end StoredProgram.CommandLine
