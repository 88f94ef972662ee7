import ChipEight.Proofs.Console.ListingText
import ChipEight.Proofs.Machine.StackFault

/-!
Where the counter goes in a step, and which bytes of the memory a step writes. The length of an
instruction is decided in the decoder, in the fetch of a second word, in the skip and in the
listing; the law of the counter speaks of the listing alone, so that all of them agree.
-/

namespace ChipEight

namespace Instruction

theorem decode_eq_setIndexLong_iff (word : UInt16) :
    decode word = .setIndexLong ↔ word = longLoad := by
  constructor
  · intro h
    unfold decode at h
    dsimp only at h
    split at h <;> try cases h
    · unfold decodeSystem at h
      split at h <;> cases h
    · split at h <;> cases h
    · unfold decodeArithmetic at h
      split at h <;> cases h
    · split at h <;> cases h
    · split at h <;> cases h
    · split at h
      · assumption
      · unfold decodeDevice at h
        split at h <;> cases h
  · rintro rfl
    rfl

/-- The counter does not simply move past the instruction. -/
def isControl : Instruction → Bool
  | .jump _ | .call _ | .jumpOffset _ _ | .returnFromCall | .exit | .skip _ | .awaitKey _ => true
  | _ => false

end Instruction

theorem Entry.size_ofMemory (memory : Memory) (address : Address) :
    UInt16.ofNat (ofMemory memory address).size = Processor.lengthOf (memory.readWord address) := by
  simp only [size, ofMemory, Processor.lengthOf, Instruction.decode_eq_setIndexLong_iff]
  split <;> rfl

namespace Machine

/-- Bytes of the instruction that a listing shows at an address. -/
def sizeAt (machine : Machine) (address : Address) : UInt16 :=
  UInt16.ofNat (Entry.ofMemory machine.memory address).size

theorem sizeAt_eq (machine : Machine) (address : Address) :
    machine.sizeAt address = Processor.lengthOf (machine.memory.readWord address) :=
  Entry.size_ofMemory machine.memory address

/-- The counter after the next instruction. A return has nowhere to go without a call. -/
def destination? (machine : Machine) : Option Address :=
  let start := machine.cpu.counter
  match machine.next with
  | .jump target | .call target => some target.toAddress
  | .jumpOffset x base =>
    let offset := if machine.cpu.dialect.jumpByTopDigit then machine.cpu.get x
      else machine.cpu.get 0
    some (UInt16.ofNat (base.val + offset.toNat))
  | .returnFromCall => machine.cpu.stack.addresses.head?
  | .exit => some 0x200
  | .skip condition =>
    some (if machine.holds condition then start + 2 + machine.sizeAt (start + 2) else start + 2)
  | .awaitKey _ => some (if machine.keypad.released?.isSome then start + 2 else start)
  | _ => some (start + machine.sizeAt start)

/-- All instructions but those of control go on after their last word. -/
theorem counter_execute (machine : Machine) {instruction : Instruction}
    (hplain : instruction.isControl = false) :
    (machine.execute instruction).state.cpu.counter =
      if instruction = .setIndexLong then machine.cpu.counter + 2 else machine.cpu.counter := by
  cases instruction with
  | jump _ | call _ | jumpOffset _ _ | returnFromCall | exit | skip _ | awaitKey _ => cases hplain
  | arithmetic operation x y =>
    show (machine.cpu.compute operation x y).counter = machine.cpu.counter
    rw [Processor.compute_registers]
  | loadRange _ _ | loadThrough _ =>
    show (machine.cpu.setAll _ _).counter = machine.cpu.counter
    rw [Processor.setAll_registers]
  | saveFlags x => simp [execute, Outcome.state, onCpu, Processor.saveFlags]
  | restoreFlags x => simp [execute, Outcome.state, onCpu, Processor.restoreFlags]
  | _ => rfl

theorem counter_skipIf (machine : Machine) (condition : Condition) :
    (machine.skipIf condition).cpu.counter =
      if machine.holds condition then
        machine.cpu.counter + machine.sizeAt machine.cpu.counter
      else machine.cpu.counter := by
  rw [skipIf, sizeAt_eq]
  split <;> rfl

theorem destination?_of_plain {machine : Machine} (hplain : machine.next.isControl = false) :
    machine.destination? = some (machine.cpu.counter + machine.sizeAt machine.cpu.counter) := by
  unfold destination?
  cases hnext : machine.next with
  | jump _ | call _ | jumpOffset _ _ | returnFromCall | exit | skip _ | awaitKey _ =>
    rw [hnext] at hplain
    cases hplain
  | _ => rfl

theorem counter_fetched (machine : Machine) :
    machine.fetched.cpu.counter = machine.cpu.counter + 2 := rfl

/-- The fetch moves past one word, and the long load past the other. -/
theorem counter_execute_fetched (machine : Machine) (hplain : machine.next.isControl = false) :
    (machine.fetched.execute machine.next).state.cpu.counter =
      machine.cpu.counter + machine.sizeAt machine.cpu.counter := by
  have hlong : machine.next = .setIndexLong ↔
      machine.memory.readWord machine.cpu.counter = Instruction.longLoad :=
    Instruction.decode_eq_setIndexLong_iff _
  rw [counter_execute _ hplain, counter_fetched, sizeAt_eq, Processor.lengthOf]
  simp only [hlong]
  split
  · exact UInt16.add_assoc _ 2 2
  · rfl

/-- None of these instructions fails. -/
theorem counter_step_of_plain {machine : Machine} (hplain : machine.next.isControl = false) :
    machine.step.state.cpu.counter = machine.cpu.counter + machine.sizeAt machine.cpu.counter := by
  rw [← counter_execute_fetched machine hplain, step_eq]
  cases hresult : machine.fetched.execute machine.next with
  | done after => rfl
  | fault reason left =>
    obtain ⟨-, ⟨target, hcall, -⟩ | ⟨hreturn, -⟩⟩ := (execute_eq_fault_iff _ _ _ _).mp hresult
    · rw [hcall] at hplain
      cases hplain
    · rw [hreturn] at hplain
      cases hplain

theorem offsetTarget_eq (cpu : Processor) (x : Register) (base : ShortAddress) :
    cpu.offsetTarget x base = UInt16.ofNat (base.val +
      (if cpu.dialect.jumpByTopDigit then cpu.get x else cpu.get 0).toNat) := by
  rw [UInt16.ofNat_add, UInt16.ofNat_uInt8ToNat]
  rfl

/-- The same for the instructions of control, wherever the counter is when they are executed. -/
theorem counter_execute_control {machine after : Machine} (hcontrol : machine.next.isControl = true)
    (h : machine.fetched.execute machine.next = .done after) :
    machine.destination? = some after.cpu.counter := by
  unfold destination?
  cases hnext : machine.next with
  | jump target =>
    rw [hnext] at h
    cases h
    rfl
  | call target =>
    rw [hnext] at h
    simp only [execute, call] at h
    split at h
    · cases h
      rfl
    · cases h
  | returnFromCall =>
    rw [hnext] at h
    simp only [execute, returnFromCall] at h
    split at h
    · next address stack hpop =>
      cases h
      exact congrArg List.head? (CallStack.addresses_of_pop? hpop)
    · cases h
  | exit =>
    rw [hnext] at h
    cases h
    rfl
  | jumpOffset x base =>
    rw [hnext] at h
    cases h
    exact congrArg some (offsetTarget_eq machine.fetched.cpu x base).symm
  | skip condition =>
    rw [hnext] at h
    cases h
    have hholds : machine.fetched.holds condition = machine.holds condition := by
      cases condition <;> rfl
    rw [counter_skipIf, hholds]
    rfl
  | awaitKey x =>
    rw [hnext] at h
    cases h
    have hkeypad : machine.fetched.keypad = machine.keypad := rfl
    simp only [awaitKey, hkeypad]
    cases machine.keypad.released? with
    | some key => rfl
    | none => exact congrArg some (UInt16.add_sub_cancel machine.cpu.counter 2).symm
  | _ =>
    rw [hnext] at hcontrol
    cases hcontrol

/-- The counter goes where the listing says: past what it shows at the counter and, in a skip,
past what it shows behind that. -/
theorem destination?_of_step {machine after : Machine} (h : machine.step = .done after) :
    machine.destination? = some after.cpu.counter := by
  have hexecute := execute_of_step h
  cases hcontrol : machine.next.isControl with
  | false =>
    rw [destination?_of_plain hcontrol, ← counter_execute_fetched machine hcontrol, hexecute]
    rfl
  | true => exact counter_execute_control hcontrol hexecute

end Machine

namespace Memory

/-- Addresses from the given one on, going on at zero after the last. -/
def consecutive (address : Address) : Nat → List Address
  | 0 => []
  | count + 1 => address :: consecutive (address + 1) count

theorem read_writeAll_of_not_mem (memory : Memory) {address other : Address}
    {values : List UInt8} (h : other ∉ consecutive address values.length) :
    (memory.writeAll address values).read other = memory.read other := by
  induction values generalizing memory address with
  | nil => rfl
  | cons value values ih =>
    have hfirst := List.ne_of_not_mem_cons h
    have hrest := List.not_mem_of_not_mem_cons h
    rw [writeAll, ih (memory.write address value) hrest, read_write, if_neg hfirst.symm]

end Memory

namespace Machine

/-- The bytes that an instruction writes, from the index on. -/
def stored (machine : Machine) : Instruction → List UInt8
  | .storeRange x y => (Processor.span x y).map machine.cpu.get
  | .storeThrough x => (Processor.span 0 x).map machine.cpu.get
  | .storeDecimal x => decimalDigits (machine.cpu.get x)
  | _ => []

theorem memory_execute (machine : Machine) (instruction : Instruction) :
    (machine.execute instruction).state.memory =
      machine.memory.writeAll machine.cpu.index (machine.stored instruction) := by
  cases instruction with
  | call target =>
    simp only [execute, call, stored, Memory.writeAll]
    cases machine.cpu.stack.push? machine.cpu.counter <;> rfl
  | returnFromCall =>
    simp only [execute, returnFromCall, stored, Memory.writeAll]
    cases machine.cpu.stack.pop? <;> rfl
  | skip condition =>
    simp only [execute, skipIf, stored, Memory.writeAll, Outcome.state]
    split <;> rfl
  | awaitKey x =>
    simp only [execute, awaitKey, stored, Memory.writeAll, Outcome.state]
    split <;> rfl
  | saveFlags x => simp only [execute, Outcome.state, onCpu, stored, Memory.writeAll]
  | restoreFlags x => simp only [execute, Outcome.state, onCpu, stored, Memory.writeAll]
  | _ => rfl

/-- The addresses that the next instruction writes to. -/
def written (machine : Machine) : List Address :=
  Memory.consecutive machine.cpu.index (machine.stored machine.next).length

theorem memory_step (machine : Machine) :
    machine.step.state.memory =
      machine.memory.writeAll machine.cpu.index (machine.stored machine.next) := by
  have hexecute : (machine.fetched.execute machine.next).state.memory =
      machine.memory.writeAll machine.cpu.index (machine.fetched.stored machine.next) :=
    machine.fetched.memory_execute machine.next
  have hstored : machine.fetched.stored machine.next = machine.stored machine.next := by
    cases machine.next <;> rfl
  rw [state_step Machine.memory fun _ _ => rfl, hexecute, hstored]

theorem read_step {machine : Machine} {address : Address} (h : address ∉ machine.written) :
    machine.step.state.memory.read address = machine.memory.read address := by
  rw [memory_step]
  exact machine.memory.read_writeAll_of_not_mem h

end Machine

end ChipEight
