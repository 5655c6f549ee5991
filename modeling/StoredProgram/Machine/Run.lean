import StoredProgram.Machine.Basic
import StoredProgram.Run

set_option autoImplicit false

namespace StoredProgram.Machine

abbrev run (machine : Machine) : Option (Stop Machine) :=
  step.runWithin machine none

abbrev runFor (machine : Machine) (limit : Nat) : Stop Machine :=
  step.runFor machine limit

abbrev runWithin (machine : Machine) (limit : Option Nat) : Option (Stop Machine) :=
  step.runWithin machine limit

-- The steps after which a run that has not faulted never will.
def horizon : Nat := 100

def endless (machine : Machine) : Bool :=
  (step.advance horizon machine).2.isNone

-- The machines at which a step is attempted, latest first, in front of earlier ones.
def attemptsOnto (earlier : List Machine) : Nat → Machine → List Machine
  | 0, _ => earlier
  | budget + 1, machine =>
      match step.run machine with
      | .ok () next => attemptsOnto (machine :: earlier) budget next
      | .error _ _ => machine :: earlier

def attempts (machine : Machine) (budget : Nat) : List Machine :=
  (attemptsOnto [] budget machine).reverse

theorem attempts_onto_append (earlier : List Machine) (budget : Nat) (machine : Machine) :
    attemptsOnto earlier budget machine = attemptsOnto [] budget machine ++ earlier := by
  induction budget generalizing earlier machine with
  | zero => rfl
  | succ budget ih =>
      simp only [attemptsOnto]
      cases step.run machine with
      | error => rfl
      | ok _ next =>
          dsimp only
          rw [ih (machine :: earlier), ih [machine]]
          simp

theorem attempts_zero (machine : Machine) : machine.attempts 0 = [] := rfl

theorem attempts_succ (machine : Machine) (budget : Nat) :
    machine.attempts (budget + 1) =
      machine :: match step.run machine with
        | .ok () next => next.attempts budget
        | .error _ _ => [] := by
  simp only [attempts, attemptsOnto]
  cases step.run machine with
  | error => rfl
  | ok _ next =>
      dsimp only
      rw [attempts_onto_append]
      simp

end StoredProgram.Machine
