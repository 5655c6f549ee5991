import StoredProgram.Proofs.Splitting

set_option autoImplicit false

namespace StoredProgram.CommandLine

structure Permitted (settings : List Setting) : Prop where
  program : ∃ text, programs settings = [text] ∧ text ≠ ""
  limit : (limits settings).length ≤ 1
  written : ∀ text ∈ limits settings, ∃ value, Denotes text value
  once : ∀ switch ∈ [.disassemble, .dumpState, .quiet], (switches settings).count switch ≤ 1

structure Asks (settings : List Setting) (request : Arguments) : Prop where
  program : programs settings = [request.program]
  maxSteps : ∀ value, request.maxSteps = some value ↔ ∃ text ∈ limits settings, Denotes text value
  disassemble : request.disassemble = (switches settings).contains .disassemble
  dumpState : request.dumpState = (switches settings).contains .dumpState
  level : request.level = levelOf (switches settings)

def Stored.request (stored : Stored) (program : String) : Arguments where
  program
  maxSteps := stored.limit
  disassemble := stored.disassemble
  dumpState := stored.dumpState
  level := Reading.level {
    Reading.start with
    disassemble := stored.disassemble
    dumpState := stored.dumpState
    quiet := stored.quiet
    verbosity := stored.verbosity }

section Settings

variable {settings : List Setting}

theorem permitted_iff (lasting : .help ∉ switches settings ∧ .version ∉ switches settings) :
    Permitted settings ↔ Acceptable settings ∧ programs settings ≠ [] := by
  constructor
  · rintro ⟨⟨text, one, named⟩, limit, written, once⟩
    refine ⟨⟨⟨?_, ?_⟩, ⟨limit, written⟩, ⟨once, lasting⟩⟩, ?_⟩
    · rw [one]
      exact Nat.le_refl 1
    · rw [one]
      exact List.forall_mem_singleton.mpr named
    · rw [one]
      exact List.cons_ne_nil _ _
  · rintro ⟨⟨⟨few, named⟩, ⟨limit, written⟩, ⟨once, -⟩⟩, some⟩
    obtain ⟨text, one⟩ := List.length_eq_one_iff.mp (Nat.le_antisymm few (List.length_pos_iff.mpr some))
    exact ⟨⟨text, one, named text (by rw [one]; exact List.mem_singleton.mpr rfl)⟩, limit, written, once⟩

theorem asks_of_tally (acceptable : Acceptable settings) (program : String)
    (named : (tally settings).program = some program) : Asks settings ((tally settings).request program) where
  program := by
    obtain ⟨others, given⟩ := List.head?_eq_some_iff.mp named
    have sole := acceptable.program
    rw [given] at sole
    obtain rfl := sole.alone
    exact given
  maxSteps value := by
    have sole := acceptable.limit
    have read : ((tally settings).request program).maxSteps = (limits settings).head?.bind readLimit? := rfl
    rw [read]
    cases given : limits settings with
    | nil => simp
    | cons text others =>
        rw [given] at sole
        obtain rfl := sole.alone
        simp [read_limit_iff]
  disassemble := rfl
  dumpState := rfl
  level := by
    apply level_of_added
    refine ⟨?_, ?_, ?_, ?_⟩ <;> simp [tally, Reading.start]

theorem asks_unique {request other : Arguments} (asks : Asks settings request) (asksToo : Asks settings other) :
    request = other := by
  have program : request.program = other.program := by
    have same := asks.program.symm.trans asksToo.program
    exact List.singleton_inj.mp same
  have maxSteps : request.maxSteps = other.maxSteps := by
    ext value
    rw [asks.maxSteps, asksToo.maxSteps]
  have disassemble := asks.disassemble.trans asksToo.disassemble.symm
  have dumpState := asks.dumpState.trans asksToo.dumpState.symm
  have level := asks.level.trans asksToo.level.symm
  cases request
  cases other
  simp_all

variable {others : List Setting} (same : settings.Perm others)

include same

theorem limits_perm : (limits settings).Perm (limits others) :=
  same.filterMap Setting.limit?

theorem switches_perm : (switches settings).Perm (switches others) :=
  same.filterMap Setting.switch?

theorem programs_perm (text : String) (one : programs settings = [text]) : programs others = [text] := by
  have programs := same.filterMap Setting.program?
  exact List.perm_singleton.mp (programs.symm.trans (List.Perm.of_eq one))

theorem permitted_perm (permitted : Permitted settings) : Permitted others := by
  have limits := limits_perm same
  have switches := switches_perm same
  obtain ⟨⟨text, one, named⟩, limit, written, once⟩ := permitted
  refine ⟨⟨text, programs_perm same text one, named⟩, ?_, ?_, ?_⟩
  · exact limits.length_eq ▸ limit
  · exact fun text member => written text (limits.mem_iff.mpr member)
  · exact fun switch member => switches.count_eq switch ▸ once switch member

theorem asks_perm {request : Arguments} (asks : Asks settings request) : Asks others request where
  program := programs_perm same _ asks.program
  maxSteps value := by
    rw [asks.maxSteps]
    simp only [(limits_perm same).mem_iff]
  disassemble := by rw [asks.disassemble, (switches_perm same).contains_eq]
  dumpState := by rw [asks.dumpState, (switches_perm same).contains_eq]
  level := by
    rw [asks.level, levelOf, levelOf, (switches_perm same).count_eq]
    simp only [(switches_perm same).mem_iff]

end Settings

theorem to_option_eq_some_iff {Value : Type} (result : Except Refusal Value) (value : Value) :
    result.toOption = some value ↔ result = .ok value := by
  cases result <;> simp [Except.toOption]

theorem parse_eq_ok_iff (arguments : List String) (request : Arguments) :
    Arguments.parse arguments = .ok request ↔
      ∃ stored program, Reading.settledOf (arguments.foldlM Reading.accept Reading.start) = some stored ∧
        stored.program = some program ∧ request = stored.request program := by
  constructor
  · intro accepted
    obtain ⟨reading, read, finished⟩ := (Attempt.bind_eq_ok_iff _ _ _).mp accepted
    obtain ⟨flushed, held, finished⟩ := (Attempt.bind_eq_ok_iff _ _ _).mp finished
    cases named : flushed.program with
    | none =>
        rw [named] at finished
        cases finished
    | some program =>
        rw [named] at finished
        cases finished
        refine ⟨flushed.stored, program, ?_, named, rfl⟩
        rw [read, Reading.settled_of_ok, Reading.settled, held]
        rfl
  · rintro ⟨stored, program, settled, named, rfl⟩
    obtain ⟨reading, read, settled⟩ := Option.bind_eq_some_iff.mp settled
    obtain ⟨flushed, held, rfl⟩ := Option.map_eq_some_iff.mp settled
    change flushed.program = some program at named
    refine (Attempt.bind_eq_ok_iff _ _ _).mpr ⟨reading, (to_option_eq_some_iff _ _).mp read,
      (Attempt.bind_eq_ok_iff _ _ _).mpr ⟨flushed, (to_option_eq_some_iff _ _).mp held, ?_⟩⟩
    rw [named]
    rfl

section Whole

variable (arguments : List String)

theorem separator_not_mem_front : "--" ∉ front arguments := by
  intro member
  have other := List.all_eq_true.mp List.all_takeWhile _ member
  simp at other

-- The separator forgets nothing that is held back in front of it.
theorem settled_apart :
    Reading.settledOf (arguments.foldlM Reading.accept Reading.start) =
      (Reading.settledOf ((front arguments).foldlM Reading.accept Reading.start)).bind
        (·.storeAll ((behind arguments).map .program)) := by
  have words := separator_not_mem_front arguments
  have whole : front arguments ++ arguments.dropWhile (· ≠ "--") = arguments := List.takeWhile_append_dropWhile
  have rest := Reading.settled_of_bind ((front arguments).foldlM Reading.accept Reading.start)
    (fun reading => (arguments.dropWhile (· ≠ "--")).foldlM Reading.accept reading) _
    fun reading done => Reading.settled_rest arguments (Reading.unseparated_of_words _ words rfl done)
  calc
    _ = Reading.settledOf
        ((front arguments ++ arguments.dropWhile (· ≠ "--")).foldlM Reading.accept Reading.start) := by rw [whole]
    _ = _ := by
      rw [List.foldlM_append]
      exact rest

theorem settled_arguments (groups : List Group) (split : front arguments = groups.flatMap Group.arguments) :
    Reading.settledOf (arguments.foldlM Reading.accept Reading.start) =
      Stored.nothing.storeAll (settingsGiven groups (behind arguments)) := by
  have words := separator_not_mem_front arguments
  have ready : ¬ Reading.start.Waits := by nofun
  rw [split] at words
  rw [settled_apart, split, Reading.settled_groups groups rfl ready words, settingsGiven, Stored.store_all_append]
  rfl

theorem groups_of_settled (stored : Stored)
    (settled : Reading.settledOf (arguments.foldlM Reading.accept Reading.start) = some stored) :
    ∃ groups : List Group, front arguments = groups.flatMap Group.arguments := by
  rw [settled_apart] at settled
  obtain ⟨between, settled, -⟩ := Option.bind_eq_some_iff.mp settled
  obtain ⟨reading, read, settled⟩ := Option.bind_eq_some_iff.mp settled
  have ready : ¬ reading.Waits := by
    intro waits
    rw [Reading.settled, Reading.flush_of_waits waits] at settled
    cases settled
  exact Reading.groups_of_accepted (front arguments) (separator_not_mem_front arguments) rfl
    ((to_option_eq_some_iff _ _).mp read) ready

theorem lasting_of_group (group : Group) (given : Switch) (member : .switch given ∈ group.settings) :
    given ≠ .help ∧ given ≠ .version := by
  cases group with
  | limit text => simp [Group.settings] at member
  | joinedLimit text => simp [Group.settings] at member
  | program text plain => simp [Group.settings] at member
  | switch other lasting =>
      obtain rfl : given = other := by simpa [Group.settings] using member
      exact lasting
  | cluster letters begun known =>
      obtain ⟨letter, -, same⟩ := List.mem_map.mp member
      cases same
      split <;> decide

theorem switches_last (groups : List Group) (plain : List String) :
    .help ∉ switches (settingsGiven groups plain) ∧ .version ∉ switches (settingsGiven groups plain) := by
  have last (given : Switch) (member : given ∈ switches (settingsGiven groups plain)) :
      given ≠ .help ∧ given ≠ .version := by
    obtain ⟨setting, member, same⟩ := List.mem_filterMap.mp member
    obtain rfl : setting = .switch given := by
      cases setting <;> simp_all [Setting.switch?]
    rcases List.mem_append.mp member with grouped | plain
    · obtain ⟨group, -, inside⟩ := List.mem_flatMap.mp grouped
      exact lasting_of_group group given inside
    · obtain ⟨text, -, same⟩ := List.mem_map.mp plain
      cases same
  exact ⟨fun member => (last _ member).1 rfl, fun member => (last _ member).2 rfl⟩

end Whole

theorem parse_split_iff (arguments : List String) (groups : List Group) (request : Arguments)
    (split : front arguments = groups.flatMap Group.arguments) :
    Arguments.parse arguments = .ok request ↔
      Permitted (settingsGiven groups (behind arguments)) ∧ Asks (settingsGiven groups (behind arguments)) request := by
  have permitted := permitted_iff (switches_last groups (behind arguments))
  rw [parse_eq_ok_iff, settled_arguments arguments groups split, permitted]
  constructor
  · rintro ⟨stored, program, settled, named, rfl⟩
    obtain ⟨acceptable, rfl⟩ := (store_all_eq_some_iff _ _).mp settled
    obtain ⟨others, given⟩ := List.head?_eq_some_iff.mp named
    exact ⟨⟨acceptable, by rw [given]; exact List.cons_ne_nil _ _⟩, asks_of_tally acceptable program named⟩
  · rintro ⟨⟨acceptable, some⟩, asks⟩
    have named : (tally (settingsGiven groups (behind arguments))).program = .some request.program := by
      rw [tally, asks.program]
      rfl
    exact ⟨_, request.program, (store_all_eq_some_iff _ _).mpr ⟨acceptable, rfl⟩, named,
      asks_unique asks (asks_of_tally acceptable request.program named)⟩

theorem reordered_apart (arguments : List String) (groups others : List Group)
    (split : front arguments = groups.flatMap Group.arguments) (same : groups.Perm others) :
    front (others.flatMap Group.arguments ++ arguments.dropWhile (· ≠ "--")) = others.flatMap Group.arguments ∧
      behind (others.flatMap Group.arguments ++ arguments.dropWhile (· ≠ "--")) = behind arguments := by
  have words : ∀ argument ∈ others.flatMap Group.arguments, decide (argument ≠ "--") = true := by
    intro argument member
    have inFront : argument ∈ front arguments := split ▸ (same.flatMap_right _).mem_iff.mpr member
    exact decide_eq_true fun separator => separator_not_mem_front arguments (separator ▸ inFront)
  rw [front, behind, List.takeWhile_append_of_pos words, List.dropWhile_append_of_pos words]
  rcases rest_cases arguments with ⟨rest, nothing⟩ | rest
  · rw [rest, nothing]
    simp
  · rw [rest]
    simp

theorem command_line_grammar (arguments : List String) :
    ((∃ request, Arguments.parse arguments = .ok request) ↔
      ∃ groups, front arguments = groups.flatMap Group.arguments ∧
        Permitted (settingsGiven groups (behind arguments))) ∧
    (∀ request groups, Arguments.parse arguments = .ok request →
      front arguments = groups.flatMap Group.arguments → Asks (settingsGiven groups (behind arguments)) request) ∧
    ∀ request (groups others : List Group), Arguments.parse arguments = .ok request →
      front arguments = groups.flatMap Group.arguments → groups.Perm others →
        Arguments.parse (others.flatMap Group.arguments ++ arguments.dropWhile (· ≠ "--")) = .ok request := by
  refine ⟨⟨?_, ?_⟩, ?_, ?_⟩
  · rintro ⟨request, accepted⟩
    obtain ⟨stored, -, settled, -, -⟩ := (parse_eq_ok_iff arguments request).mp accepted
    obtain ⟨groups, split⟩ := groups_of_settled arguments stored settled
    exact ⟨groups, split, ((parse_split_iff arguments groups request split).mp accepted).1⟩
  · rintro ⟨groups, split, permitted⟩
    obtain ⟨acceptable, some⟩ := (permitted_iff (switches_last groups (behind arguments))).mp permitted
    obtain ⟨program, others, given⟩ := List.exists_cons_of_ne_nil some
    have named : (tally (settingsGiven groups (behind arguments))).program = .some program := by
      rw [tally, given]
      rfl
    exact ⟨_, (parse_split_iff arguments groups _ split).mpr ⟨permitted, asks_of_tally acceptable program named⟩⟩
  · intro request groups accepted split
    exact ((parse_split_iff arguments groups request split).mp accepted).2
  · intro request groups others accepted split same
    obtain ⟨permitted, asks⟩ := (parse_split_iff arguments groups request split).mp accepted
    obtain ⟨parts, kept⟩ := reordered_apart arguments groups others split same
    have settings : (settingsGiven groups (behind arguments)).Perm (settingsGiven others (behind arguments)) :=
      (same.flatMap_right _).append_right _
    rw [parse_split_iff _ others request parts, kept]
    exact ⟨permitted_perm settings permitted, asks_perm settings asks⟩

def separatedGroups : List Group :=
  [.cluster ['v', 'q'] (List.cons_ne_nil _ _) (by simp), .limit "+18446744073709551615", .switch .dumpState (by decide)]

def separatedRequest : Arguments where
  program := "--version"
  maxSteps := some 18446744073709551615
  disassemble := false
  dumpState := true
  level := .off

theorem option_behind_the_separator_is_run :
    front ["-vq", "--max-steps", "+18446744073709551615", "--dump-state", "--", "--version"] =
        separatedGroups.flatMap Group.arguments ∧
      Permitted (settingsGiven separatedGroups ["--version"]) ∧
      Arguments.parse ["-vq", "--max-steps", "+18446744073709551615", "--dump-state", "--", "--version"] =
        .ok separatedRequest ∧
      Asks (settingsGiven separatedGroups ["--version"]) separatedRequest ∧
      Arguments.parse ["--dump-state", "--max-steps", "+18446744073709551615", "-vq", "--", "--version"] =
        .ok separatedRequest ∧
      ¬ ∃ groups : List Group, front ["--max-steps", "--", "5"] = groups.flatMap Group.arguments ∧
        Permitted (settingsGiven groups ["5"]) := by
  obtain ⟨permits, asks, reorders⟩ :=
    command_line_grammar ["-vq", "--max-steps", "+18446744073709551615", "--dump-state", "--", "--version"]
  obtain ⟨permitsToo, -⟩ := command_line_grammar ["--max-steps", "--", "5"]
  have split : front ["-vq", "--max-steps", "+18446744073709551615", "--dump-state", "--", "--version"] =
      separatedGroups.flatMap Group.arguments := rfl
  have read : readLimit? "+18446744073709551615" = some 18446744073709551615 := rfl
  have permitted : Permitted (settingsGiven separatedGroups ["--version"]) := by
    refine ⟨⟨"--version", rfl, by decide⟩, Nat.le_refl 1, ?_, by decide⟩
    intro text member
    obtain rfl : text = "+18446744073709551615" := List.mem_singleton.mp member
    exact ⟨_, (read_limit_iff _ _).mp read⟩
  obtain ⟨request, accepted⟩ := permits.mpr ⟨separatedGroups, split, permitted⟩
  obtain rfl : request = separatedRequest := (Except.ok.inj accepted).symm
  refine ⟨split, permitted, accepted, asks _ _ accepted split,
    reorders _ _ _ accepted split (List.reverse_perm separatedGroups).symm, ?_⟩
  intro groups
  obtain ⟨request, accepted⟩ := permitsToo.mpr groups
  cases accepted

end StoredProgram.CommandLine
