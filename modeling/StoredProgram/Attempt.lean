set_option autoImplicit false

namespace StoredProgram

-- A computation on a state. Where it fails, the state stays as it has become until then.
abbrev Attempt (Error State : Type) := EStateM Error State

namespace Attempt

variable {Error State Value : Type}

def demand : Except Error Value → Attempt Error State Value
  | .ok value => pure value
  | .error error => throw error

instance : MonadLift (Except Error) (Attempt Error State) := ⟨demand⟩

def settled (before : State) : Except Error State → EStateM.Result Error State Unit
  | .ok after => .ok () after
  | .error error => .error error before

@[simp] theorem run_lift_ok (value : Value) (state : State) :
    (liftM (Except.ok value : Except Error Value) : Attempt Error State Value).run state =
      .ok value state := rfl

@[simp] theorem run_lift_error (error : Error) (state : State) :
    (liftM (Except.error error : Except Error Value) : Attempt Error State Value).run state =
      .error error state := rfl

theorem settled_eq_ok_iff (before after : State) (result : Except Error State) :
    settled before result = .ok () after ↔ result = .ok after := by
  cases result <;> simp [settled]

theorem settled_eq_error_iff (before after : State) (error : Error) (result : Except Error State) :
    settled before result = .error error after ↔ result = .error error ∧ after = before := by
  cases result <;> simp [settled, eq_comm]

variable {Other : Type}

theorem bind_eq_ok_iff (result : Except Error Value) (next : Value → Except Error Other) (other : Other) :
    result.bind next = .ok other ↔ ∃ value, result = .ok value ∧ next value = .ok other := by
  cases result <;> simp [Except.bind]

theorem map_eq_ok_iff (result : Except Error Value) (change : Value → Other) (other : Other) :
    result.map change = .ok other ↔ ∃ value, result = .ok value ∧ change value = other := by
  cases result <;> simp [Except.map]

end Attempt

end StoredProgram
