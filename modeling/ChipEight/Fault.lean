import ChipEight.Hex
import ChipEight.Instruction

/-!
What can go wrong while a program runs, and the outcome of an operation that may go wrong. A
fault leaves a state too, so that running goes on from one value to the next in either case.
-/

namespace ChipEight

inductive Fault where
  /-- A call of `target` found no room for its return address. -/
  | callStackFull (target : ShortAddress)
  /-- A return at `address` found no return address. -/
  | callStackEmpty (address : Address)
  deriving DecidableEq, Repr

def Fault.message : Fault → String
  | .callStackFull target =>
    "cannot enter subroutine at 0x" ++ Hex.fixed 3 target.val ++ ", call stack is full"
  | .callStackEmpty address =>
    "cannot return at 0x" ++ Hex.fixed 4 address.toNat ++ ", not in a subroutine"

/-- A state that was reached, or a fault and the state it left. -/
inductive Outcome (State : Type) where
  | done (state : State)
  | fault (reason : Fault) (state : State)
  deriving DecidableEq, Repr

namespace Outcome

variable {State : Type}

/-- The state that was reached or left. -/
def state : Outcome State → State
  | done state => state
  | fault _ state => state

def fault? : Outcome State → Option Fault
  | done _ => none
  | fault reason _ => some reason

def map {Other : Type} (f : State → Other) : Outcome State → Outcome Other
  | done state => done (f state)
  | fault reason state => fault reason (f state)

theorem state_map {Other : Type} (f : State → Other) (outcome : Outcome State) :
    (outcome.map f).state = f outcome.state := by
  cases outcome <;> rfl

theorem eq_done {outcome : Outcome State} (h : outcome.fault? = none) :
    outcome = done outcome.state := by
  cases outcome with
  | done state => rfl
  | fault reason state => cases h

theorem eq_fault {outcome : Outcome State} {reason : Fault} (h : outcome.fault? = some reason) :
    outcome = fault reason outcome.state := by
  cases outcome with
  | done state => cases h
  | fault found state =>
    cases h
    rfl

end Outcome

end ChipEight
