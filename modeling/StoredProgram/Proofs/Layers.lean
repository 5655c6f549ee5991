import StoredProgram.Proofs.Reachability

set_option autoImplicit false

namespace StoredProgram

def Reply.succeeds : Reply → Bool
  | .report single => single.failure.isNone
  | .reports several => several.all fun single => single.failure.isNone
  | .table _ => true

namespace Command

def drives : Command → Bool
  | .step => true
  | .steps _ => true
  | .run => true
  | .runFor _ => true
  | _ => false

def loads : Command → Bool
  | .load _ => true
  | .loadText _ => true
  | _ => false

def layers (earlier : List (List Byte)) : Command → List (List Byte)
  | .new => []
  | .withProgram image => [image]
  | command => command.image?.toList ++ earlier

theorem image_of_drives (command : Command) (driving : command.drives) : command.image? = none := by
  cases command with
  | step | steps | run | runFor => rfl
  | _ => cases driving

theorem layers_of_drives (command : Command) (earlier : List (List Byte)) (driving : command.drives) :
    command.layers earlier = earlier := by
  cases command with
  | step | steps | run | runFor => rfl
  | _ => cases driving

end Command

def Session.layers (earlier : List (List Byte)) : List (Command × Reply) → List (List Byte)
  | [] => earlier
  | (command, reply) :: following =>
      layers (if reply.succeeds then command.layers earlier else earlier) following

namespace Memory

def uppermost (layers : List (List Byte)) (index : Nat) : Byte :=
  (layers.findSome? fun image => image[index]?).getD 0

def MadeOf (memory : Memory) (layers : List (List Byte)) : Prop :=
  ∀ index, index < capacity → memory.read index = .ok (uppermost layers index)

theorem zeroed_made_of : zeroed.MadeOf [] := by
  intro index inside
  rw [read_eq_ok_iff]
  simp [zeroed, uppermost, inside]

theorem uppermost_covered (image : List Byte) (layers : List (List Byte)) (index : Nat)
    (covered : index < image.length) : uppermost (image :: layers) index = image[index] := by
  simp [uppermost, covered]

theorem uppermost_beyond (image : List Byte) (layers : List (List Byte)) (index : Nat)
    (beyond : image.length ≤ index) : uppermost (image :: layers) index = uppermost layers index := by
  simp [uppermost, beyond]

theorem made_of_load (memory loaded : Memory) (image : List Byte) (layers : List (List Byte))
    (made : memory.MadeOf layers) (load : memory.load image = .ok loaded) :
    loaded.MadeOf (image :: layers) := by
  intro index inside
  have cells := ((load_eq_ok_iff memory loaded image).mp load).2
  rw [read_eq_ok_iff, cells]
  by_cases covered : index < image.length
  · rw [uppermost_covered image layers index covered, List.getElem?_append_left covered]
    exact List.getElem?_eq_getElem covered
  · have beyond := Nat.le_of_not_lt covered
    rw [uppermost_beyond image layers index beyond, List.getElem?_append_right beyond, List.getElem?_drop,
      Nat.add_sub_cancel' beyond]
    exact (read_eq_ok_iff memory index _).mp (made index inside)

end Memory

namespace Machine

open Attempt

theorem perform_of_image (command : Command) (machine : Machine) (image : List Byte)
    (source : command.image? = some image) :
    command.perform machine = Command.perform.reportOn (.ofLoad machine (load image)) := by
  cases command with
  | load other =>
      cases source
      rfl
  | loadText text =>
      rw [Command.image?] at source
      cases parsed : Program.parse text with
      | error error =>
          rw [parsed] at source
          cases source
      | ok other =>
          rw [parsed] at source
          cases source
          rw [Command.perform, Report.ofLoad, run_load_text, parsed]
          rfl
  | _ => cases source

theorem perform_without_image (command : Command) (machine : Machine) (loading : command.loads)
    (unparsed : command.image? = none) :
    ∃ error, command.perform machine = Command.perform.reportOn ⟨machine, some (.unloadable error)⟩ := by
  cases command with
  | load image => cases unparsed
  | loadText text =>
      rw [Command.image?] at unparsed
      cases parsed : Program.parse text with
      | error error =>
          refine ⟨error, ?_⟩
          rw [Command.perform, Report.ofLoad, run_load_text, parsed]
      | ok image =>
          rw [parsed] at unparsed
          cases unparsed
  | _ => cases loading

theorem loading_cases (command : Command) (machine next : Machine) (reply : Reply) (loading : command.loads)
    (performed : command.perform machine = some (next, reply)) :
    (∃ image memory, command.image? = some image ∧ machine.memory.load image = .ok memory ∧
      next = { machine with memory } ∧ reply.succeeds = true) ∨
    ((∀ image, command.image? = some image → Memory.capacity < image.length) ∧
      next = machine ∧ reply.succeeds = false) := by
  cases source : command.image? with
  | none =>
      obtain ⟨error, refused⟩ := perform_without_image command machine loading source
      rw [refused] at performed
      cases performed
      exact .inr ⟨nofun, rfl, rfl⟩
  | some image =>
      rw [perform_of_image command machine image source] at performed
      by_cases fits : image.length ≤ Memory.capacity
      · rw [report_of_fitting machine image fits] at performed
        cases performed
        exact .inl ⟨image, _, rfl, dif_pos fits, rfl, rfl⟩
      · have oversized := Nat.lt_of_not_le fits
        rw [report_of_oversized machine image oversized] at performed
        cases performed
        refine .inr ⟨?_, rfl, rfl⟩
        rintro other ⟨rfl⟩
        exact oversized

theorem replacing_cases (image : List Byte) (machine next : Machine) (reply : Reply)
    (performed : (Command.withProgram image).perform machine = some (next, reply)) :
    (image.length ≤ Memory.capacity ∧ withProgram image = .ok next ∧ reply.succeeds = true) ∨
      (Memory.capacity < image.length ∧ next = machine ∧ reply.succeeds = false) := by
  rw [Command.perform] at performed
  by_cases fits : image.length ≤ Memory.capacity
  · rw [with_program_of_fits image fits] at performed
    cases performed
    exact .inl ⟨fits, with_program_of_fits image fits, rfl⟩
  · have oversized := Nat.lt_of_not_le fits
    rw [with_program_oversized image oversized] at performed
    cases performed
    exact .inr ⟨oversized, rfl, rfl⟩

theorem driving_keeps_memory (command : Command) (machine next : Machine) (reply : Reply)
    (driving : command.drives) (performed : command.perform machine = some (next, reply)) :
    next.memory = machine.memory := by
  have effect := perform_effect command machine next reply performed
  generalize reply.faults = faults at effect
  cases effect with
  | renewed => cases driving
  | replaced => cases driving
  | written source =>
      rw [command.image_of_drives driving] at source
      cases source
  | driven reached => exact (completes_frame _ machine next reached).1

theorem made_of_program (image : List Byte) (machine : Machine) (loaded : withProgram image = .ok machine) :
    machine.memory.MadeOf [image] := by
  by_cases fits : image.length ≤ Memory.capacity
  · rw [with_program_of_fits image fits] at loaded
    cases loaded
    exact Memory.made_of_load Memory.zeroed _ image [] Memory.zeroed_made_of (dif_pos fits)
  · rw [with_program_oversized image (Nat.lt_of_not_le fits)] at loaded
    cases loaded

theorem perform_made_of (command : Command) (machine next : Machine) (reply : Reply)
    (layers : List (List Byte)) (made : machine.memory.MadeOf layers)
    (performed : command.perform machine = some (next, reply)) :
    next.memory.MadeOf (if reply.succeeds then command.layers layers else layers) := by
  have loading (loads : command.loads) (laid : command.layers layers = command.image?.toList ++ layers) :
      next.memory.MadeOf (if reply.succeeds then command.layers layers else layers) := by
    rcases loading_cases command machine next reply loads performed with
      ⟨image, memory, source, loaded, rfl, succeeds⟩ | ⟨-, rfl, fails⟩
    · rw [if_pos succeeds, laid, source]
      exact Memory.made_of_load machine.memory memory image layers made loaded
    · rw [fails]
      exact made
  have driving (drives : command.drives) :
      next.memory.MadeOf (if reply.succeeds then command.layers layers else layers) := by
    rw [command.layers_of_drives layers drives, ite_self,
      driving_keeps_memory command machine next reply drives performed]
    exact made
  cases command with
  | new =>
      cases performed
      exact Memory.zeroed_made_of
  | withProgram image =>
      rcases replacing_cases image machine next reply performed with ⟨-, loaded, succeeds⟩ | ⟨-, rfl, fails⟩
      · rw [if_pos succeeds]
        exact made_of_program image next loaded
      · rw [fails]
        exact made
  | load | loadText => exact loading rfl rfl
  | step | steps | run | runFor => exact driving rfl
  | display =>
      cases performed
      exact made

theorem session_made_of (commands : List Command) (machine final : Machine) (layers : List (List Byte))
    (made : machine.memory.MadeOf layers) (reached : Session.machineAfter machine commands = some final) :
    final.memory.MadeOf
      (Session.layers layers (commands.zip (Session.replies machine commands))) := by
  induction commands generalizing machine layers with
  | nil =>
      cases reached
      exact made
  | cons command following ih =>
      rw [Session.machineAfter] at reached
      split at reached
      · rename_i next reply performed
        rw [Session.replies, performed]
        exact ih next _ (perform_made_of command machine next reply layers made performed) reached
      · cases reached

theorem advance_keeps_memory (machine : Machine) (count : Nat) :
    (step.advance count machine).1.memory = machine.memory := by
  obtain ⟨done, -, reached, -⟩ := run_for_counts machine count
  rw [run_for_state] at reached
  exact (completes_frame done machine _ reached).1

-- A session starts with a fresh machine. The steps of a run that never ends are among those of `advance`.
theorem memory_is_what_was_loaded (commands : List Command) (machine : Machine)
    (reached : Session.machineAfter fresh commands = some machine) :
    (∀ index, index < 100 → machine.memory.read index =
      .ok (Memory.uppermost (Session.layers [] (commands.zip (Session.replies fresh commands))) index)) ∧
    (∀ count, (step.advance count machine).1.memory = machine.memory) ∧
    ∀ (command : Command) (next : Machine) (reply : Reply), command.perform machine = some (next, reply) →
      (command.drives → next.memory = machine.memory) ∧
      (command.loads →
        (reply.succeeds ↔ ∃ image, command.image? = some image ∧ image.length ≤ 100) ∧
        next = { machine with memory := next.memory } ∧ (¬ reply.succeeds → next = machine)) ∧
      (∀ image, command = .withProgram image →
        (reply.succeeds ↔ image.length ≤ 100) ∧ (¬ reply.succeeds → next = machine)) := by
  have capacity : Memory.capacity = 100 := rfl
  refine ⟨session_made_of commands fresh machine [] Memory.zeroed_made_of reached,
    advance_keeps_memory machine, ?_⟩
  intro command next reply performed
  refine ⟨fun drives => driving_keeps_memory command machine next reply drives performed, ?_, ?_⟩
  · intro loads
    rcases loading_cases command machine next reply loads performed with
      ⟨image, memory, source, loaded, rfl, succeeds⟩ | ⟨oversized, rfl, fails⟩
    · have fits := ((Memory.load_eq_ok_iff machine.memory memory image).mp loaded).1
      exact ⟨⟨fun _ => ⟨image, source, fits⟩, fun _ => succeeds⟩, rfl, absurd succeeds⟩
    · refine ⟨⟨fun succeeds => ?_, ?_⟩, rfl, fun _ => rfl⟩
      · rw [fails] at succeeds
        cases succeeds
      · rintro ⟨image, source, fits⟩
        exact absurd fits (Nat.not_le.mpr (oversized image source))
  · rintro image rfl
    rcases replacing_cases image machine next reply performed with
      ⟨fits, -, succeeds⟩ | ⟨oversized, rfl, fails⟩
    · exact ⟨⟨fun _ => fits, fun _ => succeeds⟩, absurd succeeds⟩
    · simp [fails]
      omega

def overlaidSession : List Command :=
  [.withProgram [0b10000010, 4, 1, 0b01010100], .step, .load [7, 9], .load (List.replicate 101 5),
    .loadText "12", .runFor 3]

theorem shorter_image_over_longer :
    ∃ machine, Session.machineAfter fresh overlaidSession = some machine ∧
      machine.memory.read 1 = .ok 9 ∧ machine.memory.read 3 = .ok 0b01010100 ∧
      machine.memory.read 4 = .ok 0 ∧ (step.advance 8 machine).1.memory = machine.memory := by
  obtain ⟨machine, reached, layered⟩ :
      ∃ machine, Session.machineAfter fresh overlaidSession = some machine ∧
        Session.layers [] (overlaidSession.zip (Session.replies fresh overlaidSession)) =
          [[7, 9], [0b10000010, 4, 1, 0b01010100]] := ⟨_, rfl, rfl⟩
  obtain ⟨cells, keeps, -⟩ := memory_is_what_was_loaded _ machine reached
  rw [layered] at cells
  exact ⟨machine, reached, cells 1 (by decide), cells 3 (by decide), cells 4 (by decide), keeps 8⟩

end Machine

end StoredProgram
