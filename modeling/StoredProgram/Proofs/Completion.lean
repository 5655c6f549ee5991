import StoredProgram.Machine.Run
import StoredProgram.Proofs.Faulting

set_option autoImplicit false

namespace StoredProgram

namespace Attempt

section Steps

variable {State : Type} (step : Attempt Fault State Unit)

inductive Completes : Nat → State → State → Prop
  | none (state : State) : Completes 0 state state
  | more {count : Nat} {state next final : State} (done : step.run state = .ok () next)
      (rest : Completes count next final) : Completes (count + 1) state final

def FaultsAfter (count : Nat) (state : State) (stop : Stop State) : Prop :=
  ∃ last, step.Completes count state last ∧ step.run last = .error stop.fault stop.state

-- How a run ends: after so many completed steps and so many attempted ones. A fault is met within an attempt,
-- the limit between two of them.
inductive Ends (state : State) : Option Nat → Nat → Nat → Stop State → Prop
  | faulted {limit : Option Nat} {count : Nat} {stop : Stop State} (faults : step.FaultsAfter count state stop)
      (before : ∀ bound ∈ limit, count < bound) : Ends state limit count (count + 1) stop
  | limited {count : Nat} {final : State} (reached : step.Completes count state final) :
      Ends state (some count) count count ⟨final, .stepLimitReached count⟩

-- That a run ends is told by its steps, and that the loop then returns is a result.
def Stops (state : State) (limit : Option Nat) : Prop :=
  limit = none → ∃ count stop, step.FaultsAfter count state stop

variable {step}

theorem completes_zero_iff (state final : State) : step.Completes 0 state final ↔ final = state := by
  constructor
  · intro reached
    cases reached
    rfl
  · rintro rfl
    exact .none final

theorem completes_succ_iff (count : Nat) (state final : State) :
    step.Completes (count + 1) state final ↔
      ∃ next, step.run state = .ok () next ∧ step.Completes count next final := by
  constructor
  · intro reached
    cases reached with
    | more done rest => exact ⟨_, done, rest⟩
  · rintro ⟨next, done, rest⟩
    exact .more done rest

theorem completes_add_iff (first second : Nat) (state final : State) :
    step.Completes (first + second) state final ↔
      ∃ middle, step.Completes first state middle ∧ step.Completes second middle final := by
  induction first generalizing state with
  | zero => simp [completes_zero_iff]
  | succ first ih =>
      rw [Nat.add_right_comm, completes_succ_iff]
      constructor
      · rintro ⟨next, done, rest⟩
        obtain ⟨middle, early, late⟩ := (ih next).mp rest
        exact ⟨middle, .more done early, late⟩
      · rintro ⟨middle, early, late⟩
        obtain ⟨next, done, rest⟩ := (completes_succ_iff first state middle).mp early
        exact ⟨next, done, (ih next).mpr ⟨middle, rest, late⟩⟩

theorem completes_unique (count : Nat) (state final other : State) (reached : step.Completes count state final)
    (reachedToo : step.Completes count state other) : final = other := by
  induction reached with
  | none state => exact ((completes_zero_iff state other).mp reachedToo).symm
  | more done rest ih =>
      obtain ⟨next, doneToo, restToo⟩ := (completes_succ_iff _ _ _).mp reachedToo
      rw [done] at doneToo
      cases doneToo
      exact ih restToo

theorem completes_or_faults (count : Nat) (state : State) :
    (∃ final, step.Completes count state final) ∨
      ∃ before stop, before < count ∧ step.FaultsAfter before state stop := by
  induction count generalizing state with
  | zero => exact .inl ⟨state, .none state⟩
  | succ count ih =>
      cases ran : step.run state with
      | error fault after =>
          exact .inr ⟨0, ⟨after, fault⟩, Nat.succ_pos count, state, .none state, ran⟩
      | ok _ next =>
          rcases ih next with ⟨final, reached⟩ | ⟨before, stop, less, last, reached, faulted⟩
          · exact .inl ⟨final, .more ran reached⟩
          · exact .inr ⟨before + 1, stop, Nat.succ_lt_succ less, last, .more ran reached, faulted⟩

theorem completes_le_faults_after (count limit : Nat) (state final : State) (stop : Stop State)
    (faults : step.FaultsAfter count state stop) (reached : step.Completes limit state final) : limit ≤ count := by
  refine Nat.le_of_not_lt fun beyond => ?_
  obtain ⟨extra, length⟩ := Nat.exists_eq_add_of_lt beyond
  obtain ⟨last, before, faulted⟩ := faults
  rw [length, Nat.add_assoc, completes_add_iff] at reached
  obtain ⟨middle, early, late⟩ := reached
  obtain ⟨next, done, -⟩ := (completes_succ_iff extra middle final).mp late
  rw [completes_unique count state middle last early before, faulted] at done
  cases done

theorem faults_after_unique (count other : Nat) (state : State) (stop stopToo : Stop State)
    (faults : step.FaultsAfter count state stop) (faultsToo : step.FaultsAfter other state stopToo) :
    count = other ∧ stop = stopToo := by
  obtain ⟨last, reached, faulted⟩ := faults
  obtain ⟨lastToo, reachedToo, faultedToo⟩ := faultsToo
  have same : count = other := Nat.le_antisymm
    (completes_le_faults_after other count state last stopToo ⟨lastToo, reachedToo, faultedToo⟩ reached)
    (completes_le_faults_after count other state lastToo stop ⟨last, reached, faulted⟩ reachedToo)
  subst other
  rw [completes_unique count state last lastToo reached reachedToo, faultedToo] at faulted
  cases stop
  cases stopToo
  cases faulted
  exact ⟨rfl, rfl⟩

theorem faults_after_add (count rest : Nat) (state middle : State) (stop : Stop State)
    (reached : step.Completes count state middle) (faults : step.FaultsAfter rest middle stop) :
    step.FaultsAfter (count + rest) state stop := by
  obtain ⟨last, onward, faulted⟩ := faults
  exact ⟨last, (completes_add_iff count rest state last).mpr ⟨middle, reached, onward⟩, faulted⟩

theorem completes_before_fault (count limit : Nat) (state : State) (stop : Stop State)
    (faults : step.FaultsAfter count state stop) (within : limit ≤ count) :
    ∃ reached, step.Completes limit state reached := by
  obtain ⟨last, reached, -⟩ := faults
  rw [← Nat.add_sub_cancel' within, completes_add_iff] at reached
  obtain ⟨middle, early, -⟩ := reached
  exact ⟨middle, early⟩

theorem faults_after_rest (count done : Nat) (state middle : State) (stop : Stop State)
    (faults : step.FaultsAfter count state stop) (reached : step.Completes done state middle) :
    ∃ rest, count = done + rest ∧ step.FaultsAfter rest middle stop := by
  have within := completes_le_faults_after count done state middle stop faults reached
  obtain ⟨last, whole, faulted⟩ := faults
  rw [← Nat.add_sub_cancel' within, completes_add_iff] at whole
  obtain ⟨other, toOther, onward⟩ := whole
  rw [completes_unique done state other middle toOther reached] at onward
  exact ⟨count - done, (Nat.add_sub_cancel' within).symm, last, onward, faulted⟩

theorem advance_of_completes (count : Nat) (state final : State) (reached : step.Completes count state final) :
    step.advance count state = (final, none) := by
  induction reached with
  | none state => rfl
  | more done rest ih =>
      rw [advance, done]
      exact ih

theorem advance_of_faults (count limit : Nat) (state : State) (stop : Stop State)
    (faults : step.FaultsAfter count state stop) (beyond : count < limit) :
    step.advance limit state = (stop.state, some stop.fault) := by
  obtain ⟨last, reached, faulted⟩ := faults
  induction reached generalizing limit with
  | none state =>
      obtain ⟨budget, rfl⟩ := Nat.exists_eq_add_of_lt beyond
      rw [Nat.zero_add, advance, faulted]
  | more done rest ih =>
      obtain ⟨budget, rfl⟩ := Nat.exists_eq_succ_of_ne_zero (Nat.ne_zero_of_lt beyond)
      rw [advance, done]
      exact ih budget (Nat.lt_of_succ_lt_succ beyond) faulted

theorem run_for_state (state : State) (limit : Nat) :
    (step.runFor state limit).state = (step.advance limit state).1 := by
  rw [runFor]
  split <;> rename_i advanced <;> rw [advanced]

theorem run_for_of_completes (limit : Nat) (state final : State) (reached : step.Completes limit state final) :
    step.runFor state limit = ⟨final, .stepLimitReached limit⟩ := by
  rw [runFor, advance_of_completes limit state final reached]

theorem run_for_of_faults (count limit : Nat) (state : State) (stop : Stop State)
    (faults : step.FaultsAfter count state stop) (beyond : count < limit) : step.runFor state limit = stop := by
  rw [runFor, advance_of_faults count limit state stop faults beyond]

theorem loop_of_faults (count : Nat) (state : State) (stop : Stop State) (faults : step.FaultsAfter count state stop) :
    step.loop state = some (stop.fault, stop.state) := by
  obtain ⟨last, reached, faulted⟩ := faults
  induction reached with
  | none state => rw [loop, faulted]
  | more done rest ih =>
      rw [loop, done]
      exact ih faulted

theorem faults_after_of_loop (state : State) (returned : Fault × State) (ended : step.loop state = some returned) :
    ∃ count, step.FaultsAfter count state ⟨returned.2, returned.1⟩ := by
  revert state returned
  -- The loop has no bound of its own: what it returns is read off by induction over the rounds that the
  -- least fixed point has made.
  apply loop.partial_correctness step
  intro onward ih state returned ended
  cases ran : step.run state with
  | error fault after =>
      rw [ran] at ended
      cases ended
      exact ⟨0, state, .none state, ran⟩
  | ok _ next =>
      rw [ran] at ended
      obtain ⟨count, last, reached, faulted⟩ := ih next returned ended
      exact ⟨count + 1, last, .more ran reached, faulted⟩

theorem run_of_faults (count : Nat) (state : State) (stop : Stop State) (faults : step.FaultsAfter count state stop) :
    step.runWithin state none = some stop := by
  rw [runWithin, loop_of_faults count state stop faults]
  rfl

theorem stops_within (state : State) (limit : Nat) : step.Stops state (some limit) := by
  intro unlimited
  cases unlimited

theorem run_within_of_stops (state : State) (limit : Option Nat) (stops : step.Stops state limit) :
    ∃ stop, step.runWithin state limit = some stop := by
  cases limit with
  | none =>
      obtain ⟨count, stop, faults⟩ := stops rfl
      exact ⟨stop, run_of_faults count state stop faults⟩
  | some limit => exact ⟨step.runFor state limit, rfl⟩

theorem run_eq_some_iff (state : State) (stop : Stop State) :
    step.runWithin state none = some stop ↔ ∃ count, step.FaultsAfter count state stop := by
  constructor
  · intro ended
    obtain ⟨returned, looped, rfl⟩ := Option.map_eq_some_iff.mp ended
    exact faults_after_of_loop state returned looped
  · rintro ⟨count, faults⟩
    exact run_of_faults count state stop faults

theorem run_eq_none_iff (state : State) :
    step.runWithin state none = none ↔ ∀ count, ∃ reached, step.Completes count state reached := by
  constructor
  · intro endless count
    rcases completes_or_faults count state with reached | ⟨before, stop, -, faults⟩
    · exact reached
    · rw [run_of_faults before state stop faults] at endless
      cases endless
  · intro completes
    cases ended : step.runWithin state none with
    | none => rfl
    | some stop =>
        obtain ⟨count, faults⟩ := (run_eq_some_iff state stop).mp ended
        obtain ⟨reached, further⟩ := completes (count + 1)
        have impossible := completes_le_faults_after count (count + 1) state reached stop faults further
        omega

theorem run_within_eq_none_iff (state : State) (limit : Option Nat) :
    step.runWithin state limit = none ↔ limit = none ∧ step.runWithin state none = none := by
  cases limit <;> simp [runWithin]

theorem run_within_of_ends (state : State) (limit : Option Nat) (count attempted : Nat) (stop : Stop State)
    (ends : step.Ends state limit count attempted stop) : step.runWithin state limit = some stop := by
  cases ends with
  | faulted faults before =>
      cases limit with
      | none => exact run_of_faults count state stop faults
      | some limit => exact congrArg some (run_for_of_faults count limit state stop faults (before limit rfl))
  | limited reached => exact congrArg some (run_for_of_completes count state _ reached)

theorem ends_of_run_within (state : State) (limit : Option Nat) (stop : Stop State)
    (ended : step.runWithin state limit = some stop) :
    ∃ count attempted, step.Ends state limit count attempted stop := by
  cases limit with
  | none =>
      obtain ⟨count, faults⟩ := (run_eq_some_iff state stop).mp ended
      exact ⟨count, count + 1, .faulted faults nofun⟩
  | some limit =>
      obtain rfl := Option.some.inj ended
      rcases completes_or_faults limit state with ⟨final, reached⟩ | ⟨count, stop, less, faults⟩
      · rw [run_for_of_completes limit state final reached]
        exact ⟨limit, limit, .limited reached⟩
      · rw [run_for_of_faults count limit state stop faults less]
        refine ⟨count, count + 1, .faulted faults ?_⟩
        rintro _ ⟨rfl⟩
        exact less

end Steps

end Attempt

namespace Machine

open Attempt

theorem completes_frame (count : Nat) (machine final : Machine) (reached : step.Completes count machine final) :
    final.memory = machine.memory ∧ final.steps = machine.steps + count := by
  induction reached with
  | none machine => exact ⟨rfl, rfl⟩
  | @more count machine next final done rest ih =>
      obtain ⟨memory, steps⟩ := successor_frame machine next ((step_ok_iff machine next).mp done)
      refine ⟨ih.1.trans memory, ?_⟩
      rw [ih.2, steps]
      omega

theorem faults_after_final (count : Nat) (machine : Machine) (stop : Stop Machine)
    (faults : step.FaultsAfter count machine stop) : step.Completes count machine stop.state := by
  obtain ⟨last, reached, faulted⟩ := faults
  obtain ⟨-, unchanged⟩ := (step_error_iff last stop.state stop.fault).mp faulted
  rw [unchanged]
  exact reached

theorem faults_after_refused (count : Nat) (machine : Machine) (stop : Stop Machine)
    (faults : step.FaultsAfter count machine stop) : stop.state.successor = .error stop.fault := by
  obtain ⟨last, -, faulted⟩ := faults
  obtain ⟨refused, unchanged⟩ := (step_error_iff last stop.state stop.fault).mp faulted
  rw [unchanged]
  exact refused

theorem getElem_attempts_iff (budget index : Nat) (machine attempted : Machine) :
    (machine.attempts budget)[index]? = some attempted ↔
      index < budget ∧ step.Completes index machine attempted := by
  induction budget generalizing index machine with
  | zero => simp [attempts_zero]
  | succ budget ih =>
      rw [attempts_succ]
      cases index with
      | zero => simp [completes_zero_iff, eq_comm]
      | succ index =>
          rw [List.getElem?_cons_succ, completes_succ_iff, Nat.add_lt_add_iff_right]
          cases ran : step.run machine with
          | error fault after => simp
          | ok _ next => simp [ih]

theorem mem_attempts_iff (budget : Nat) (machine attempted : Machine) :
    attempted ∈ machine.attempts budget ↔ ∃ index, index < budget ∧ step.Completes index machine attempted := by
  simp [List.mem_iff_getElem?, getElem_attempts_iff]

theorem attempts_of_fewer (count index : Nat) (machine attempted : Machine) (within : index ≤ count)
    (member : attempted ∈ machine.attempts index) : attempted ∈ machine.attempts count := by
  obtain ⟨place, early, reached⟩ := (mem_attempts_iff index machine attempted).mp member
  exact (mem_attempts_iff count machine attempted).mpr ⟨place, Nat.lt_of_lt_of_le early within, reached⟩

theorem faults_after_ne_step_limit (count limit : Nat) (machine : Machine) (stop : Stop Machine)
    (faults : step.FaultsAfter count machine stop) : stop.fault ≠ .stepLimitReached limit := by
  obtain ⟨last, -, faulted⟩ := faults
  intro limited
  rw [limited, step_error_iff] at faulted
  exact successor_ne_step_limit last limit faulted.1

theorem run_for_cases (machine : Machine) (limit : Nat) :
    (∃ final, step.Completes limit machine final ∧ machine.runFor limit = ⟨final, .stepLimitReached limit⟩) ∨
      ∃ count stop, count < limit ∧ step.FaultsAfter count machine stop ∧ machine.runFor limit = stop := by
  rcases completes_or_faults limit machine with ⟨final, reached⟩ | ⟨count, stop, beyond, faults⟩
  · exact .inl ⟨final, reached, run_for_of_completes limit machine final reached⟩
  · exact .inr ⟨count, stop, beyond, faults, run_for_of_faults count limit machine stop faults beyond⟩

theorem run_for_limited_iff (machine : Machine) (limit : Nat) :
    (machine.runFor limit).fault = .stepLimitReached limit ↔
      ∃ final, step.Completes limit machine final := by
  constructor
  · intro limited
    rcases run_for_cases machine limit with ⟨final, reached, -⟩ | ⟨count, stop, -, faults, ended⟩
    · exact ⟨final, reached⟩
    · rw [ended] at limited
      exact absurd limited (faults_after_ne_step_limit count limit machine stop faults)
  · rintro ⟨final, reached⟩
    exact congrArg Stop.fault (run_for_of_completes limit machine final reached)

end Machine

end StoredProgram
