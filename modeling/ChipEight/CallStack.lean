import ChipEight.Instruction

/-!
Return addresses, the innermost call first. There is room for 256 of them.
-/

namespace ChipEight

structure CallStack where
  addresses : List Address := []
  length_le : addresses.length ≤ 256 := by decide
  deriving DecidableEq, Repr

namespace CallStack

def empty : CallStack := { }

def depth (stack : CallStack) : Nat :=
  stack.addresses.length

/-- `none` when there is no room. -/
def push? (stack : CallStack) (address : Address) : Option CallStack :=
  if h : stack.addresses.length < 256 then
    some { addresses := address :: stack.addresses, length_le := h }
  else none

/-- The innermost return address beside the rest. -/
def pop? (stack : CallStack) : Option (Address × CallStack) :=
  match h : stack.addresses with
  | [] => none
  | address :: rest =>
    have hlength : rest.length ≤ 256 := by
      have := stack.length_le
      simp only [h, List.length_cons] at this
      omega
    some (address, { addresses := rest, length_le := hlength })

end CallStack

end ChipEight
