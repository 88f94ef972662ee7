import ChipEight.Proofs.Console.Call

/-!
Which instructions can fail, and what a fault leaves behind. Only a call that finds the stack
full and a return that finds it empty fail. Neither has changed anything but the counter by
then, and the counter is put back, so a step that fails is as if it was never made.
-/

namespace ChipEight

theorem Outcome.map_eq_fault_iff {State Other : Type} (f : State → Other)
    (outcome : Outcome State) (reason : Fault) (left : Other) :
    outcome.map f = .fault reason left ↔
      ∃ state, outcome = .fault reason state ∧ f state = left := by
  cases outcome with
  | done state => simp [map]
  | fault found state => simp [map, and_assoc]

namespace CallStack

theorem push?_eq_none_iff (stack : CallStack) (address : Address) :
    stack.push? address = none ↔ stack.depth = 256 := by
  have hroom := stack.length_le
  simp only [push?, dite_eq_right_iff, reduceCtorEq, imp_false, depth]
  omega

theorem pop?_eq_none_iff (stack : CallStack) : stack.pop? = none ↔ stack.depth = 0 := by
  obtain ⟨addresses, hlength⟩ := stack
  cases addresses with
  | nil => simp [pop?, depth]
  | cons address rest => simp [pop?, depth]

theorem addresses_of_pop? {stack rest : CallStack} {address : Address}
    (h : stack.pop? = some (address, rest)) : stack.addresses = address :: rest.addresses := by
  obtain ⟨addresses, hlength⟩ := stack
  cases addresses with
  | nil => cases h
  | cons first others =>
    cases h
    rfl

end CallStack

namespace Machine

/-- The next instruction is a call without room for its return address, or a return without a
call. The fault names the target of the call or the address of the return. -/
def StackFault (machine : Machine) : Fault → Prop
  | .callStackFull target => machine.next = .call target ∧ machine.cpu.stack.depth = 256
  | .callStackEmpty address =>
    machine.next = .returnFromCall ∧ machine.cpu.stack.depth = 0 ∧ address = machine.cpu.counter

theorem call_eq_fault_iff (machine left : Machine) (target : ShortAddress) (reason : Fault) :
    machine.call target = .fault reason left ↔
      left = machine ∧ machine.cpu.stack.depth = 256 ∧ reason = .callStackFull target := by
  rw [← machine.cpu.stack.push?_eq_none_iff machine.cpu.counter, call]
  cases machine.cpu.stack.push? machine.cpu.counter with
  | some stack => simp
  | none => simp [eq_comm, and_comm]

theorem returnFromCall_eq_fault_iff (machine left : Machine) (reason : Fault) :
    machine.returnFromCall = .fault reason left ↔
      left = machine ∧ machine.cpu.stack.depth = 0 ∧
        reason = .callStackEmpty (machine.cpu.counter - 2) := by
  rw [← machine.cpu.stack.pop?_eq_none_iff, returnFromCall]
  cases machine.cpu.stack.pop? with
  | some popped => simp
  | none => simp [eq_comm, and_comm]

/-- All other instructions succeed, whatever they find. -/
theorem execute_eq_fault_iff (machine left : Machine) (instruction : Instruction)
    (reason : Fault) :
    machine.execute instruction = .fault reason left ↔
      left = machine ∧
        ((∃ target, instruction = .call target ∧ machine.cpu.stack.depth = 256 ∧
            reason = .callStackFull target) ∨
          (instruction = .returnFromCall ∧ machine.cpu.stack.depth = 0 ∧
            reason = .callStackEmpty (machine.cpu.counter - 2))) := by
  cases instruction with
  | call target => simpa [execute] using machine.call_eq_fault_iff left target reason
  | returnFromCall => simpa [execute] using machine.returnFromCall_eq_fault_iff left reason
  | _ => simp [execute]

/-- The counter is past the instruction when it fails, and the fault of a return counts back. -/
theorem execute_fetched_eq_fault_iff (machine : Machine) (reason : Fault) :
    machine.fetched.execute machine.next = .fault reason machine.fetched ↔
      machine.StackFault reason := by
  have hstart : machine.fetched.cpu.counter - 2 = machine.cpu.counter :=
    UInt16.add_sub_cancel machine.cpu.counter 2
  have hstack : machine.fetched.cpu.stack = machine.cpu.stack := rfl
  rw [execute_eq_fault_iff, hstart, hstack]
  cases reason with
  | callStackFull target => simp [StackFault]
  | callStackEmpty address => simp [StackFault]

theorem fetched_onCpu_jump (machine : Machine) :
    machine.fetched.onCpu (·.jump machine.cpu.counter) = machine := rfl

theorem step_eq_fault_iff (machine left : Machine) (reason : Fault) :
    machine.step = .fault reason left ↔ left = machine ∧ machine.StackFault reason := by
  rw [step_eq]
  constructor
  · intro h
    cases hresult : machine.fetched.execute machine.next with
    | done after =>
      rw [hresult] at h
      cases h
    | fault found after =>
      obtain ⟨rfl, -⟩ := (execute_eq_fault_iff _ _ _ _).mp hresult
      rw [hresult] at h
      cases h
      exact ⟨machine.fetched_onCpu_jump, (machine.execute_fetched_eq_fault_iff _).mp hresult⟩
  · intro h
    obtain ⟨rfl, hfault⟩ := h
    rw [(left.execute_fetched_eq_fault_iff reason).mpr hfault]
    exact congrArg _ left.fetched_onCpu_jump

end Machine

namespace Console

/-- A step fails exactly when the processor is not stalled and the next instruction is a call
with 256 return addresses on the stack or a return with none, and then the console is as it
was before, so that the same step fails again in the same way. -/
theorem step_fails_iff (console left : Console) (reason : Fault) :
    console.step = .fault reason left ↔
      left = console ∧ console.isStalled = false ∧ console.machine.StackFault reason := by
  rw [step_eq]
  cases console.isStalled with
  | true => simp
  | false =>
    simp only [Bool.false_eq_true, if_false, true_and, Outcome.map_eq_fault_iff,
      Machine.step_eq_fault_iff]
    constructor
    · intro h
      obtain ⟨_, ⟨rfl, hfault⟩, rfl⟩ := h
      exact ⟨rfl, hfault⟩
    · intro h
      obtain ⟨rfl, hfault⟩ := h
      exact ⟨_, ⟨rfl, hfault⟩, rfl⟩

end Console

end ChipEight
