import ChipEight.Proofs.Machine.StackFault

/-!
Calls and returns nest. In a run of steps without a restart, what the stack held at a call stays
below the return address of this call until the return that takes it off, and this return goes
on right behind the call. Nothing else that happens in between matters, not even what the host
does to the other components.
-/

namespace ChipEight

namespace CallStack

theorem addresses_of_push? {stack pushed : CallStack} {address : Address}
    (h : stack.push? address = some pushed) : pushed.addresses = address :: stack.addresses := by
  unfold push? at h
  split at h
  · cases h
    rfl
  · cases h

theorem eq_of_addresses_eq {first second : CallStack} (h : first.addresses = second.addresses) :
    first = second := by
  obtain ⟨addresses, hlength⟩ := first
  cases h
  rfl

/-- The stack holds the base, the address above it, and above that what was pushed later. -/
def RestsOn (stack : CallStack) (address : Address) (base : CallStack) : Prop :=
  ∃ inner, stack.addresses = inner ++ address :: base.addresses

theorem RestsOn.depth_lt {stack base : CallStack} {address : Address}
    (h : stack.RestsOn address base) : base.depth < stack.depth := by
  obtain ⟨inner, hstack⟩ := h
  rw [depth, depth, hstack, List.length_append, List.length_cons]
  omega

end CallStack

/-- The instruction puts an address on the stack or takes addresses off it. -/
def Instruction.movesStack : Instruction → Bool
  | .call _ | .returnFromCall | .exit => true
  | _ => false

namespace Machine

theorem stack_execute (machine : Machine) {instruction : Instruction}
    (hstill : instruction.movesStack = false) :
    (machine.execute instruction).state.cpu.stack = machine.cpu.stack := by
  cases hkeeps : instruction.keepsContext with
  | true => exact congrArg (·.2.1) (machine.context_execute hkeeps)
  | false =>
    cases instruction with
    | setDelay x => rfl
    | call _ | returnFromCall | exit => cases hstill
    | _ => cases hkeeps

/-- All that a step can do to the stack, with where a return goes. -/
inductive StackStep (machine after : Machine) : Prop
  | pushed (target : ShortAddress) (hnext : machine.next = .call target)
      (hstack : after.cpu.stack.addresses =
        (machine.cpu.counter + 2) :: machine.cpu.stack.addresses)
  | popped (hnext : machine.next = .returnFromCall)
      (hstack : machine.cpu.stack.addresses =
        after.cpu.counter :: after.cpu.stack.addresses)
  | emptied (hnext : machine.next = .exit) (hstack : after.cpu.stack = .empty)
  | kept (hnext : machine.next.movesStack = false) (hstack : after.cpu.stack = machine.cpu.stack)

theorem stackStep_of_step {machine after : Machine} (h : machine.step = .done after) :
    StackStep machine after := by
  have hexecute := execute_of_step h
  cases hnext : machine.next with
  | call target =>
    rw [hnext] at hexecute
    simp only [execute, call] at hexecute
    split at hexecute
    · next stack hpush =>
      cases hexecute
      exact .pushed target hnext (CallStack.addresses_of_push? hpush)
    · cases hexecute
  | returnFromCall =>
    rw [hnext] at hexecute
    simp only [execute, returnFromCall] at hexecute
    split at hexecute
    · next address stack hpop =>
      cases hexecute
      exact .popped hnext (CallStack.addresses_of_pop? hpop)
    · cases hexecute
  | exit =>
    rw [hnext] at hexecute
    cases hexecute
    exact .emptied hnext rfl
  | _ =>
    have hstill : machine.next.movesStack = false := by
      rw [hnext]
      rfl
    have hstack := machine.fetched.stack_execute hstill
    rw [hexecute] at hstack
    exact .kept hstill hstack

/-- A stack that rests on the return address of a call does so after the next step too, unless
this step is the return from the call. -/
theorem StackStep.restsOn {machine after : Machine} {address : Address} {base : CallStack}
    (hstep : StackStep machine after) (hexit : machine.next ≠ .exit)
    (h : machine.cpu.stack.RestsOn address base) :
    after.cpu.stack.RestsOn address base ∨
      (machine.next = .returnFromCall ∧ after.cpu.counter = address ∧ after.cpu.stack = base) := by
  obtain ⟨inner, hrests⟩ := h
  cases hstep with
  | pushed target hnext hstack =>
    exact .inl ⟨(machine.cpu.counter + 2) :: inner, by rw [hstack, hrests, List.cons_append]⟩
  | popped hnext hstack =>
    rw [hstack] at hrests
    cases inner with
    | nil =>
      -- The address of the call itself is on top.
      obtain ⟨hcounter, haddresses⟩ := List.cons.inj hrests
      exact .inr ⟨hnext, hcounter, CallStack.eq_of_addresses_eq haddresses⟩
    | cons top inner => exact .inl ⟨inner, (List.cons.inj hrests).2⟩
  | emptied hnext hstack => exact absurd hnext hexit
  | kept hnext hstack => exact .inl ⟨inner, by rw [hstack, hrests]⟩

/-- Steps that succeed, one after another, by the machines that they find. From one step to the
next anything but the counter and the stack may change. -/
def IsRun (run : Nat → Machine) (length : Nat) : Prop :=
  ∀ k < length, ∃ after, (run k).step = .done after ∧
    (run (k + 1)).cpu.counter = after.cpu.counter ∧ (run (k + 1)).cpu.stack = after.cpu.stack

/-- Step `k` is a return that brings the stack back to the length it had at first. -/
def ReturnsAt (run : Nat → Machine) (k : Nat) : Prop :=
  (run k).next = .returnFromCall ∧ (run (k + 1)).cpu.stack.depth = (run 0).cpu.stack.depth

instance (run : Nat → Machine) (k : Nat) : Decidable (ReturnsAt run k) :=
  inferInstanceAs (Decidable (_ ∧ _))

section Runs

variable {run : Nat → Machine} {length : Nat}

theorem IsRun.stackStep (hrun : IsRun run length) {k : Nat} (hk : k < length) :
    StackStep (run k) (run (k + 1)) := by
  obtain ⟨after, hstep, hcounter, hstack⟩ := hrun k hk
  cases stackStep_of_step hstep with
  | pushed target hnext hpushed => exact .pushed target hnext (by rw [hstack, hpushed])
  | popped hnext hpopped => exact .popped hnext (by rw [hpopped, hcounter, hstack])
  | emptied hnext hempty => exact .emptied hnext (by rw [hstack, hempty])
  | kept hnext hkept => exact .kept hnext (by rw [hstack, hkept])

theorem restsOn_of_not_returnsAt (hrun : IsRun run length) {target : ShortAddress}
    (hcall : (run 0).next = .call target) (hexit : ∀ k < length, (run k).next ≠ .exit)
    {k : Nat} (hk : k < length) (hopen : ∀ j ≤ k, ¬ ReturnsAt run j) :
    (run (k + 1)).cpu.stack.RestsOn ((run 0).cpu.counter + 2) (run 0).cpu.stack := by
  induction k with
  | zero =>
    cases hrun.stackStep hk with
    | pushed _ _ hstack => exact ⟨[], hstack⟩
    | popped hnext _ | emptied hnext _ =>
      rw [hcall] at hnext
      cases hnext
    | kept hnext _ =>
      rw [hcall] at hnext
      cases hnext
  | succ k ih =>
    have hrests := ih (by omega) fun j hj => hopen j (by omega)
    rcases (hrun.stackStep hk).restsOn (hexit _ hk) hrests with hkept | ⟨hnext, -, hstack⟩
    · exact hkept
    · exact absurd ⟨hnext, congrArg CallStack.depth hstack⟩ (hopen (k + 1) (Nat.le_refl _))

/-- From a call on, as long as the stack is longer than it was before, it holds what it held then
and above that the address behind the call. The first return that makes it as long as before
leaves it as it was and goes on at that address. -/
theorem calls_nest (hrun : IsRun run length) {target : ShortAddress}
    (hcall : (run 0).next = .call target) (hexit : ∀ k < length, (run k).next ≠ .exit) :
    (∀ k ≤ length, 0 < k →
      (∀ j ≤ k, 0 < j → (run 0).cpu.stack.depth < (run j).cpu.stack.depth) →
        (run k).cpu.stack.RestsOn ((run 0).cpu.counter + 2) (run 0).cpu.stack) ∧
    (∀ k < length, ReturnsAt run k → (∀ j < k, ¬ ReturnsAt run j) →
      (run (k + 1)).cpu.counter = (run 0).cpu.counter + 2 ∧
        (run (k + 1)).cpu.stack = (run 0).cpu.stack) ∧
    ∀ k ≤ length, (run k).cpu.stack.depth ≤ 256 := by
  refine ⟨?_, ?_, fun k _ => (run k).cpu.stack.length_le⟩
  · intro k hk hpos hlonger
    obtain ⟨k, rfl⟩ : ∃ m, k = m + 1 := ⟨k - 1, by omega⟩
    refine restsOn_of_not_returnsAt hrun hcall hexit hk fun j hj hreturns => ?_
    have hdeeper := hlonger (j + 1) (by omega) (by omega)
    rw [hreturns.2] at hdeeper
    exact Nat.lt_irrefl _ hdeeper
  · intro k hk hreturns hfirst
    cases k with
    | zero =>
      have hnext := hreturns.1
      rw [hcall] at hnext
      cases hnext
    | succ k =>
      have hrests := restsOn_of_not_returnsAt hrun hcall hexit (by omega : k < length)
        fun j hj => hfirst j (by omega)
      rcases (hrun.stackStep hk).restsOn (hexit _ hk) hrests with hkept | ⟨-, hcounter, hstack⟩
      · have hdeeper := hkept.depth_lt
        rw [hreturns.2] at hdeeper
        exact absurd hdeeper (Nat.lt_irrefl _)
      · exact ⟨hcounter, hstack⟩

end Runs

/-- A subroutine at 0x204 that calls another one at 0x208, started by a call at 0x200. -/
def nested : Machine :=
  (Console.ofImage [0x22, 0x04, 0x12, 0x02, 0x22, 0x08, 0x00, 0xEE, 0x00, 0xEE]).machine

/-- The machines that one step after another leaves. -/
def stepped (machine : Machine) : Nat → Machine
  | 0 => machine
  | k + 1 => (machine.stepped k).step.state

theorem isRun_stepped {machine : Machine} {length : Nat}
    (h : ∀ k < length, (machine.stepped k).step.fault? = none) :
    IsRun machine.stepped length :=
  fun k hk => ⟨(machine.stepped k).step.state, Outcome.eq_done (h k hk), rfl, rfl⟩

/-- The second return is the one that brings the stack back to where it was. -/
theorem calls_nest_nested :
    IsRun nested.stepped 4 ∧ (nested.stepped 0).next = .call 0x204 ∧
      (∀ k < 4, (nested.stepped k).next ≠ .exit) ∧ (nested.stepped 2).next = .returnFromCall ∧
      ReturnsAt nested.stepped 3 ∧
      (nested.stepped 2).cpu.stack.RestsOn 0x202 .empty ∧
      (nested.stepped 3).cpu.stack.RestsOn 0x202 .empty ∧
      (nested.stepped 4).cpu.counter = 0x202 ∧ (nested.stepped 4).cpu.stack = .empty := by
  have hrun : IsRun nested.stepped 4 := isRun_stepped (by decide +kernel)
  have hcall : (nested.stepped 0).next = .call 0x204 := by decide +kernel
  have hexit : ∀ k < 4, (nested.stepped k).next ≠ .exit := by decide +kernel
  have hreturns : ReturnsAt nested.stepped 3 := by decide +kernel
  have hfirst : ∀ j < 3, ¬ ReturnsAt nested.stepped j := by decide +kernel
  have hlonger : ∀ j ≤ 3, 0 < j →
      (nested.stepped 0).cpu.stack.depth < (nested.stepped j).cpu.stack.depth := by
    decide +kernel
  have hbehind : (nested.stepped 0).cpu.counter + 2 = 0x202 := by decide +kernel
  have hempty : (nested.stepped 0).cpu.stack = .empty := by decide +kernel
  obtain ⟨hrests, hback, -⟩ := calls_nest hrun hcall hexit
  rw [hbehind, hempty] at hrests hback
  obtain ⟨hcounter, hstack⟩ := hback 3 (by omega) hreturns hfirst
  simp only [Nat.reduceAdd] at hcounter hstack
  exact ⟨hrun, hcall, hexit, by decide +kernel, hreturns,
    hrests 2 (by omega) (by omega) fun j hj => hlonger j (by omega),
    hrests 3 (by omega) (by omega) hlonger, hcounter, hstack⟩

end Machine

end ChipEight
