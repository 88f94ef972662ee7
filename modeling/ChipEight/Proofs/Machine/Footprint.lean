import ChipEight.Proofs.Console.Consistency
import ChipEight.Proofs.Console.RandomDraws
import ChipEight.Proofs.Machine.CallNesting

/-!
The footprint of an instruction: the parts of the machine that it may change. They follow from the
instruction, the index before it and one switch of the dialect. Whatever is not in the footprint
stays as it is, byte by byte and register by register. Keys and dialect are in none, and native
calls and unknown words change nothing but the counter.
-/

namespace ChipEight

/-- The parts that make up a machine. -/
inductive Part where
  | memory (address : Address)
  | imageLength
  | screen
  | sound
  | keypad
  | register (r : Register)
  | flag (r : Register)
  | index
  | counter
  | stack
  | delay
  | dialect
  | random
  deriving DecidableEq, Repr

/-- The register is one of those from `x` to `y`, in either direction. -/
def Processor.Between (x y r : Register) : Prop :=
  (x ≤ r ∧ r ≤ y) ∨ (y ≤ r ∧ r ≤ x)

instance (x y r : Register) : Decidable (Processor.Between x y r) :=
  inferInstanceAs (Decidable (_ ∨ _))

namespace Instruction

/-- Number of bytes that an instruction stores from the index on. -/
def storedCount : Instruction → Nat
  | .storeDecimal _ => 3
  | .storeThrough x => x.val + 1
  | .storeRange x y => ((x.val : Int) - y.val).natAbs + 1
  | _ => 0

def reachesScreen : Instruction → Bool
  | .scroll _ | .clearScreen | .setResolution _ | .draw _ _ _ | .selectPlanes _ => true
  | _ => false

def reachesSound : Instruction → Bool
  | .loadPattern | .setSound _ | .setPitch _ => true
  | _ => false

def setsDelayTimer : Instruction → Bool
  | .setDelay _ | .exit => true
  | _ => false

def setsIndex : Instruction → Bool
  | .setIndex _ | .setIndexLong | .addToIndex _ | .pointToDigit _ | .pointToBigDigit _
  | .storeThrough _ | .loadThrough _ | .exit => true
  | _ => false

/-- The operation puts a flag into the flag register. The bitwise ones do so by a switch. -/
def setsFlag (logicClearsFlag : Bool) : Arithmetic → Bool
  | .add | .subtract | .subtractFrom | .shiftRight | .shiftLeft => true
  | .or | .and | .xor => logicClearsFlag
  | .copy => false

/-- The registers that an instruction gives values to. -/
def SetsRegister (logicClearsFlag : Bool) (r : Register) : Instruction → Prop
  | .setByte x _ | .addByte x _ | .random x _ | .readDelay x | .awaitKey x => r = x
  | .arithmetic operation x _ =>
    r = x ∨ (r = Processor.flagRegister ∧ setsFlag logicClearsFlag operation = true)
  | .loadThrough x | .restoreFlags x => r ≤ x
  | .loadRange x y => Processor.Between x y r
  | .draw _ _ _ => r = Processor.flagRegister
  | .exit => True
  | _ => False

/-- The flags that an instruction gives values to. -/
def SetsSavedFlag (r : Register) : Instruction → Prop
  | .saveFlags x => r ≤ x
  | _ => False

/-- The instruction goes on elsewhere, or may do so. -/
def transfers : Instruction → Bool
  | .jump _ | .jumpOffset _ _ | .call _ | .returnFromCall | .skip _ => true
  | _ => false

/-- The instruction changes registers, the counter, the stack and the screen only. -/
def isLocal : Instruction → Bool
  | .jump _ | .jumpOffset _ _ | .call _ | .returnFromCall | .skip _ | .setByte _ _ | .addByte _ _
  | .arithmetic _ _ _ | .readDelay _ | .awaitKey _ | .loadRange _ _ | .restoreFlags _ | .scroll _
  | .clearScreen | .setResolution _ | .draw _ _ _ | .selectPlanes _ | .native _ | .unknown _ => true
  | _ => false

/-- The instruction does nothing. -/
def isIdle : Instruction → Bool
  | .native _ | .unknown _ => true
  | _ => false

end Instruction

namespace Machine

/-- The footprint of an instruction that is executed in this machine. -/
def Touches (machine : Machine) (instruction : Instruction) : Part → Prop
  | .memory address =>
    address ∈ Memory.consecutive machine.cpu.index instruction.storedCount
  | .screen => instruction.reachesScreen = true
  | .sound => instruction.reachesSound = true
  | .register r => instruction.SetsRegister machine.cpu.dialect.logicClearsFlag r
  | .flag r => instruction.SetsSavedFlag r
  | .index => instruction.setsIndex = true
  | .counter => instruction.isControl = true ∨ instruction = .setIndexLong
  | .stack => instruction.movesStack = true
  | .delay => instruction.setsDelayTimer = true
  | .random => instruction.drawsRandom = true
  | .imageLength | .keypad | .dialect => False

/-- The machines are the same in one part. -/
def SameIn (first second : Machine) : Part → Prop
  | .memory address => first.memory.read address = second.memory.read address
  | .imageLength => first.memory.imageLength = second.memory.imageLength
  | .screen => first.screen = second.screen
  | .sound => first.sound = second.sound
  | .keypad => first.keypad = second.keypad
  | .register r => first.cpu.get r = second.cpu.get r
  | .flag r => first.cpu.flags.get r = second.cpu.flags.get r
  | .index => first.cpu.index = second.cpu.index
  | .counter => first.cpu.counter = second.cpu.counter
  | .stack => first.cpu.stack = second.cpu.stack
  | .delay => first.cpu.delay = second.cpu.delay
  | .dialect => first.cpu.dialect = second.cpu.dialect
  | .random => first.cpu.random = second.cpu.random

end Machine

theorem Memory.eq_of_read {first second : Memory}
    (hread : ∀ address, first.read address = second.read address)
    (hlength : first.imageLength = second.imageLength) : first = second := by
  obtain ⟨bytes, _⟩ := first
  obtain ⟨others, _⟩ := second
  simp only [mk.injEq]
  exact ⟨Vector.ext fun i hi => hread (UInt16.ofNatLT i hi), hlength⟩

theorem Processor.eq_of_registers {first second : Processor}
    (hregister : ∀ r, first.get r = second.get r)
    (hflag : ∀ r, first.flags.get r = second.flags.get r) (hindex : first.index = second.index)
    (hcounter : first.counter = second.counter) (hstack : first.stack = second.stack)
    (hdelay : first.delay = second.delay) (hdialect : first.dialect = second.dialect)
    (hrandom : first.random = second.random) : first = second := by
  obtain ⟨registers, _, _, _, _, flags, _, _⟩ := first
  obtain ⟨others, _, _, _, _, otherFlags, _, _⟩ := second
  simp only [mk.injEq]
  exact ⟨Vector.ext fun i hi => hregister ⟨i, hi⟩, hindex, hcounter, hstack, hdelay,
    Vector.ext fun i hi => hflag ⟨i, hi⟩, hdialect, hrandom⟩

/-- No part is left out. -/
theorem Machine.eq_of_sameIn {first second : Machine} (h : ∀ part, SameIn first second part) :
    first = second := by
  have hcpu : first.cpu = second.cpu :=
    Processor.eq_of_registers (fun r => h (.register r)) (fun r => h (.flag r)) (h .index)
      (h .counter) (h .stack) (h .delay) (h .dialect) (h .random)
  have hmemory : first.memory = second.memory :=
    Memory.eq_of_read (fun address => h (.memory address)) (h .imageLength)
  obtain ⟨_, _, _, _, _⟩ := first
  obtain ⟨_, _, _, _, _⟩ := second
  simp only [mk.injEq]
  exact ⟨hcpu, hmemory, h .screen, h .keypad, h .sound⟩

namespace Processor

theorem get_set (cpu : Processor) (x : Register) (value : UInt8) (r : Register) :
    (cpu.set x value).get r = if r = x then value else cpu.get r := by
  simp only [get, set, Fin.getElem_fin, Vector.getElem_set, Fin.val_inj, eq_comm]

theorem get_set_of_ne (cpu : Processor) {x r : Register} (h : r ≠ x) (value : UInt8) :
    (cpu.set x value).get r = cpu.get r := by
  rw [get_set, if_neg h]

theorem get_setAll_of_not_mem (cpu : Processor) {registers : List Register} {r : Register}
    (h : r ∉ registers) (values : List UInt8) : (cpu.setAll registers values).get r = cpu.get r := by
  induction registers generalizing cpu values with
  | nil => rfl
  | cons x registers ih =>
    cases values with
    | nil => rfl
    | cons value values =>
      have hfirst := List.ne_of_not_mem_cons h
      have hrest := List.not_mem_of_not_mem_cons h
      rw [setAll, ih (cpu.set x value) hrest, get_set_of_ne cpu hfirst]

theorem mem_span_iff (x y r : Register) : r ∈ span x y ↔ Between x y r := by
  unfold span Between
  split
  · simp only [List.mem_filter, List.mem_finRange, true_and, Bool.and_eq_true, decide_eq_true_eq,
      Fin.le_def] at *
    omega
  · simp only [List.mem_reverse, List.mem_filter, List.mem_finRange, true_and, Bool.and_eq_true,
      decide_eq_true_eq, Fin.le_def] at *
    omega

theorem mem_span_zero_iff (x r : Register) : r ∈ span 0 x ↔ r ≤ x := by
  rw [mem_span_iff, Between]
  simp only [Fin.le_def, Fin.val_zero]
  omega

theorem length_span : ∀ x y : Register,
    (span x y).length = ((x.val : Int) - y.val).natAbs + 1 := by
  decide +kernel

theorem get_flags_saveFlags (cpu : Processor) (x r : Register) :
    (cpu.saveFlags x).flags.get r = if r ≤ x then cpu.get r else cpu.flags.get r := by
  exact Vector.getElem_ofFn r.isLt

theorem get_restoreFlags (cpu : Processor) (x r : Register) :
    (cpu.restoreFlags x).get r = if r ≤ x then cpu.flags.get r else cpu.get r := by
  exact Vector.getElem_ofFn r.isLt

theorem get_compute (cpu : Processor) (operation : Arithmetic) (x y : Register) {r : Register}
    (hresult : r ≠ x)
    (hflag : ¬ (r = flagRegister ∧
      Instruction.setsFlag cpu.dialect.logicClearsFlag operation = true)) :
    (cpu.compute operation x y).get r = cpu.get r := by
  cases operation with
  | copy => exact cpu.get_set_of_ne hresult _
  | or | and | xor =>
    simp only [compute, setLogic]
    split
    · next hclears =>
      have hother : r ≠ flagRegister := fun h => hflag ⟨h, hclears⟩
      rw [setFlag, get_set_of_ne _ hother, get_set_of_ne _ hresult]
    · exact cpu.get_set_of_ne hresult _
  | _ =>
    have hother : r ≠ flagRegister := fun h => hflag ⟨h, rfl⟩
    simp only [compute, setWithFlag, setFlag]
    rw [get_set_of_ne _ hother, get_set_of_ne _ hresult]

end Processor

namespace Machine

theorem length_stored (machine : Machine) (instruction : Instruction) :
    (machine.stored instruction).length = instruction.storedCount := by
  cases instruction with
  | storeRange x y => rw [stored, List.length_map, Processor.length_span, Instruction.storedCount]
  | storeThrough x =>
    rw [stored, List.length_map, Processor.length_span, Instruction.storedCount]
    simp
  | _ => rfl

theorem read_execute (machine : Machine) {instruction : Instruction} {address : Address}
    (h : address ∉ Memory.consecutive machine.cpu.index instruction.storedCount) :
    (machine.execute instruction).state.memory.read address = machine.memory.read address := by
  rw [← machine.length_stored instruction] at h
  rw [memory_execute]
  exact machine.memory.read_writeAll_of_not_mem h

theorem imageLength_execute (machine : Machine) (instruction : Instruction) :
    (machine.execute instruction).state.memory.imageLength = machine.memory.imageLength := by
  rw [memory_execute]
  exact Memory.imageLength_writeAll _ _ _

theorem screenAfter_of_not_reachesScreen (machine : Machine) {instruction : Instruction}
    (h : ¬ instruction.reachesScreen = true) :
    machine.screenAfter instruction = machine.screen := by
  cases instruction with
  | scroll _ | clearScreen | setResolution _ | draw _ _ _ | selectPlanes _ => exact absurd rfl h
  | _ => rfl

theorem soundAfter_of_not_reachesSound (machine : Machine) {instruction : Instruction}
    (h : ¬ instruction.reachesSound = true) : machine.soundAfter instruction = machine.sound := by
  cases instruction with
  | loadPattern | setSound _ | setPitch _ => exact absurd rfl h
  | _ => rfl

theorem exists_state_of_transfers (machine : Machine) {instruction : Instruction}
    (h : instruction.transfers = true) :
    ∃ stack counter, (machine.execute instruction).state =
      { machine with cpu := { machine.cpu with stack, counter } } := by
  cases instruction with
  | jump _ | jumpOffset _ _ => exact ⟨_, _, rfl⟩
  | call target =>
    simp only [execute, call]
    cases machine.cpu.stack.push? machine.cpu.counter <;> exact ⟨_, _, rfl⟩
  | returnFromCall =>
    simp only [execute, returnFromCall]
    cases machine.cpu.stack.pop? <;> exact ⟨_, _, rfl⟩
  | skip condition =>
    simp only [execute, skipIf]
    split <;> exact ⟨_, _, rfl⟩
  | _ => cases h

theorem exists_state_of_isLocal (machine : Machine) {instruction : Instruction}
    (h : instruction.isLocal = true) :
    ∃ registers stack counter screen, (machine.execute instruction).state =
      { machine with cpu := { machine.cpu with registers, stack, counter }, screen } := by
  by_cases htransfers : instruction.transfers = true
  · obtain ⟨stack, counter, hstate⟩ := machine.exists_state_of_transfers htransfers
    exact ⟨machine.cpu.registers, stack, counter, machine.screen, hstate⟩
  · cases instruction with
    | jump _ | jumpOffset _ _ | call _ | returnFromCall | skip _ => exact absurd rfl htransfers
    | awaitKey x =>
      simp only [execute, awaitKey]
      split <;> exact ⟨_, _, _, _, rfl⟩
    | arithmetic operation x y =>
      simp only [execute, Outcome.state, onCpu]
      rw [Processor.compute_registers]
      exact ⟨_, _, _, _, rfl⟩
    | loadRange x y =>
      simp only [execute, load, Outcome.state, onCpu]
      rw [Processor.setAll_registers]
      exact ⟨_, _, _, _, rfl⟩
    | setByte _ _ | addByte _ _ | readDelay _ | restoreFlags _ | scroll _ | clearScreen
    | setResolution _ | draw _ _ _ | selectPlanes _ | native _ | unknown _ =>
      exact ⟨_, _, _, _, rfl⟩
    | _ => cases h

section Parts

variable (machine : Machine) {instruction : Instruction}

theorem view_execute_of_isLocal {α : Type} (view : Machine → α)
    (hview : ∀ registers stack counter screen,
      view { machine with cpu := { machine.cpu with registers, stack, counter }, screen } =
        view machine)
    (h : instruction.isLocal = true) : view (machine.execute instruction).state = view machine := by
  obtain ⟨registers, stack, counter, screen, hstate⟩ := machine.exists_state_of_isLocal h
  rw [hstate, hview]

theorem index_execute_of_not_sets (h : ¬ instruction.setsIndex = true) :
    (machine.execute instruction).state.cpu.index = machine.cpu.index := by
  by_cases hlocal : instruction.isLocal = true
  · exact machine.view_execute_of_isLocal (·.cpu.index) (fun _ _ _ _ => rfl) hlocal
  · cases instruction with
    | setIndex _ | setIndexLong | addToIndex _ | pointToDigit _ | pointToBigDigit _
    | storeThrough _ | loadThrough _ | exit => exact absurd rfl h
    | call _ | returnFromCall | skip _ | arithmetic _ _ _ | awaitKey _ | loadRange _ _
    | draw _ _ _ | restoreFlags _ => exact absurd rfl hlocal
    -- Not by `rfl`, which would compare the flags one by one first.
    | saveFlags x => simp only [execute, Outcome.state, onCpu, Processor.saveFlags]
    | _ => rfl

theorem flag_execute_of_not_sets {r : Register} (h : ¬ instruction.SetsSavedFlag r) :
    (machine.execute instruction).state.cpu.flags.get r = machine.cpu.flags.get r := by
  by_cases hlocal : instruction.isLocal = true
  · exact machine.view_execute_of_isLocal (·.cpu.flags.get r) (fun _ _ _ _ => rfl) hlocal
  · cases instruction with
    | saveFlags x => exact (machine.cpu.get_flags_saveFlags x r).trans (if_neg h)
    | loadThrough x =>
      show (machine.cpu.setAll _ _).flags.get r = _
      rw [Processor.setAll_registers]
    | call _ | returnFromCall | skip _ | arithmetic _ _ _ | awaitKey _ | loadRange _ _
    | draw _ _ _ | restoreFlags _ => exact absurd rfl hlocal
    | _ => rfl

theorem keypad_execute (instruction : Instruction) :
    (machine.execute instruction).state.keypad = machine.keypad := by
  by_cases hlocal : instruction.isLocal = true
  · exact machine.view_execute_of_isLocal (·.keypad) (fun _ _ _ _ => rfl) hlocal
  · cases instruction with
    | call _ | returnFromCall | skip _ | awaitKey _ | draw _ _ _ | restoreFlags _ =>
      exact absurd rfl hlocal
    | saveFlags _ | loadPattern => simp only [execute, Outcome.state, onCpu, onSound]
    | _ => rfl

theorem delay_execute_of_not_sets (h : ¬ instruction.setsDelayTimer = true) :
    (machine.execute instruction).state.cpu.delay = machine.cpu.delay := by
  by_cases hlocal : instruction.isLocal = true
  · exact machine.view_execute_of_isLocal (·.cpu.delay) (fun _ _ _ _ => rfl) hlocal
  · have hkeeps : instruction.keepsContext = true := by
      cases instruction with
      | call _ | returnFromCall => exact absurd rfl hlocal
      | setDelay _ | exit => exact absurd rfl h
      | _ => rfl
    exact congrArg (·.2.2) (machine.context_execute hkeeps)

theorem get_execute_of_not_sets {r : Register}
    (h : ¬ instruction.SetsRegister machine.cpu.dialect.logicClearsFlag r) :
    (machine.execute instruction).state.cpu.get r = machine.cpu.get r := by
  by_cases htransfers : instruction.transfers = true
  · obtain ⟨stack, counter, hstate⟩ := machine.exists_state_of_transfers htransfers
    rw [hstate]
    rfl
  · cases instruction with
    | call _ | returnFromCall | skip _ => exact absurd rfl htransfers
    | exit => exact absurd trivial h
    | setByte x _ | addByte x _ | random x _ | readDelay x | draw _ _ _ =>
      exact Processor.get_set_of_ne _ h _
    | awaitKey x =>
      simp only [execute, awaitKey, Outcome.state]
      split
      · exact machine.cpu.get_set_of_ne h _
      · rfl
    | arithmetic operation x y =>
      obtain ⟨hresult, hflag⟩ := not_or.mp h
      exact machine.cpu.get_compute operation x y hresult hflag
    | loadRange x y =>
      exact machine.cpu.get_setAll_of_not_mem (mt (Processor.mem_span_iff x y r).mp h) _
    | loadThrough x =>
      exact machine.cpu.get_setAll_of_not_mem (mt (Processor.mem_span_zero_iff x r).mp h) _
    | restoreFlags x => exact (machine.cpu.get_restoreFlags x r).trans (if_neg h)
    | saveFlags _ | loadPattern =>
      simp only [execute, Outcome.state, onCpu, onSound, Processor.saveFlags, Processor.get]
    | _ => rfl

end Parts

/-- What is not in the footprint of an instruction is kept, whether or not it succeeds. -/
theorem sameIn_execute (machine : Machine) (instruction : Instruction) {part : Part}
    (h : ¬ machine.Touches instruction part) :
    (machine.execute instruction).state.SameIn machine part := by
  cases part with
  | memory address => exact machine.read_execute h
  | imageLength => exact machine.imageLength_execute instruction
  | screen =>
    exact (machine.screen_execute instruction).trans (machine.screenAfter_of_not_reachesScreen h)
  | sound =>
    exact (machine.sound_execute instruction).trans (machine.soundAfter_of_not_reachesSound h)
  | keypad => exact machine.keypad_execute instruction
  | register r => exact machine.get_execute_of_not_sets h
  | flag r => exact machine.flag_execute_of_not_sets h
  | index => exact machine.index_execute_of_not_sets h
  | counter =>
    obtain ⟨hcontrol, hlong⟩ := not_or.mp h
    have hcounter := machine.counter_execute (Bool.not_eq_true _ ▸ hcontrol)
    rwa [if_neg hlong] at hcounter
  | stack => exact machine.stack_execute (Bool.not_eq_true _ ▸ h)
  | delay => exact machine.delay_execute_of_not_sets h
  | dialect => exact machine.dialect_execute instruction
  | random =>
    have hnone : ¬ instruction.drawsRandom = true := h
    have hrandom := machine.random_execute instruction
    rwa [if_neg hnone] at hrandom

theorem SameIn.trans {first second third : Machine} {part : Part}
    (h : first.SameIn second part) (h' : second.SameIn third part) : first.SameIn third part := by
  cases part <;> exact Eq.trans h h'

theorem sameIn_jump (machine : Machine) (address : Address) {part : Part} (h : part ≠ .counter) :
    (machine.onCpu (·.jump address)).SameIn machine part := by
  cases part with
  | counter => exact absurd rfl h
  | _ => rfl

/-- The fetch moves the counter, on which no footprint depends. -/
theorem touches_fetched (machine : Machine) (instruction : Instruction) (part : Part) :
    machine.fetched.Touches instruction part ↔ machine.Touches instruction part := by
  cases part <;> exact Iff.rfl

theorem sameIn_step (machine : Machine) {part : Part} (hcounter : part ≠ .counter)
    (h : ¬ machine.Touches machine.next part) : machine.step.state.SameIn machine part := by
  have hfetched : machine.fetched.SameIn machine part := machine.sameIn_jump _ hcounter
  have hexecuted := machine.fetched.sameIn_execute machine.next
    (mt (machine.touches_fetched machine.next part).mp h)
  rw [step_eq]
  cases hresult : machine.fetched.execute machine.next with
  | done after =>
    rw [hresult] at hexecuted
    exact hexecuted.trans hfetched
  -- A fault puts the counter back on top of that.
  | fault reason left =>
    rw [hresult] at hexecuted
    exact (left.sameIn_jump _ hcounter).trans (hexecuted.trans hfetched)

theorem step_of_isIdle {machine : Machine} (h : machine.next.isIdle = true) :
    machine.step = .done (machine.onCpu (·.jump (machine.cpu.counter + 2))) := by
  rw [step_eq]
  cases hnext : machine.next with
  | native _ | unknown _ => rfl
  | _ =>
    rw [hnext] at h
    cases h

/-- An instruction changes nothing outside its footprint, and a step nothing but that and the
counter. A step over a native call or an unknown word changes the counter alone. Machines that are
the same in every part are equal, so that there is nothing else to change. -/
theorem effects_are_confined (machine : Machine) :
    (∀ (instruction : Instruction) (part : Part), ¬ machine.Touches instruction part →
      (machine.execute instruction).state.SameIn machine part) ∧
    (∀ part : Part, part ≠ .counter → ¬ machine.Touches machine.next part →
      machine.step.state.SameIn machine part) ∧
    (machine.next.isIdle = true →
      machine.step = .done (machine.onCpu (·.jump (machine.cpu.counter + 2)))) ∧
    ∀ other : Machine, (∀ part, other.SameIn machine part) → other = machine := by
  refine ⟨?_, ?_, step_of_isIdle, fun other => eq_of_sameIn⟩
  · intro instruction part h
    exact machine.sameIn_execute instruction h
  · intro part hcounter h
    exact machine.sameIn_step hcounter h

/-- Stores registers 3 to 1 from the last address on. -/
def storing : Machine :=
  (Console.ofImage [0x53, 0x12]).machine.onCpu ({ · with index := 0xFFFF })

/-- Calls native code. -/
def callingNative : Machine :=
  (Console.ofImage [0x0A, 0xBC]).machine

theorem next_storing : storing.next = .storeRange 3 1 := by
  decide +kernel

theorem next_callingNative : callingNative.next = .native 0xABC := by
  decide +kernel

theorem touches_storing_iff (address : Address) :
    storing.Touches (.storeRange 3 1) (.memory address) ↔ address ∈ [0xFFFF, 0, 1] := by
  have hindex : storing.cpu.index = 0xFFFF := rfl
  have hwritten : Memory.consecutive 0xFFFF (Instruction.storeRange 3 1).storedCount =
      [0xFFFF, 0, 1] := by
    decide
  unfold Touches
  rw [hindex, hwritten]

/-- The three bytes go to the last address and to the first two, and the byte after them is kept.
A native call is passed over. -/
theorem effects_are_confined_storing :
    ¬ storing.Touches (.storeRange 3 1) (.memory 2) ∧
    (storing.execute (.storeRange 3 1)).state.SameIn storing (.memory 2) ∧
    storing.step.state.SameIn storing (.memory 2) ∧
    callingNative.step = .done (callingNative.onCpu (·.jump 0x202)) := by
  have hkept : ¬ storing.Touches (.storeRange 3 1) (.memory 2) := by
    rw [touches_storing_iff]
    decide
  obtain ⟨hexecute, hstep, -, -⟩ := effects_are_confined storing
  obtain ⟨-, -, hidle, -⟩ := effects_are_confined callingNative
  refine ⟨hkept, ?_, ?_, ?_⟩
  · exact hexecute (.storeRange 3 1) (.memory 2) hkept
  · apply hstep (.memory 2)
    · intro h
      cases h
    · rwa [next_storing]
  · apply hidle
    rw [next_callingNative]
    rfl

end Machine

end ChipEight
