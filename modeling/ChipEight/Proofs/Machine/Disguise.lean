import ChipEight.Proofs.Machine.Effect

/-!
Machines that differ in their dialect or in their random source only. An instruction works
alike on both as long as it does not consult a switch in which they differ, or draw a random
byte from sources that differ.
-/

namespace ChipEight

/-- The switches of a dialect by name. -/
inductive Switch where
  | shiftInPlace
  | shortAdvance
  | keepIndex
  | wrapSprites
  | jumpByTopDigit
  | waitForBlank
  | logicClearsFlag
  | scaleScrolls
  deriving DecidableEq, Repr

def Dialect.isOn (dialect : Dialect) : Switch → Bool
  | .shiftInPlace => dialect.shiftInPlace
  | .shortAdvance => dialect.shortAdvance
  | .keepIndex => dialect.keepIndex
  | .wrapSprites => dialect.wrapSprites
  | .jumpByTopDigit => dialect.jumpByTopDigit
  | .waitForBlank => dialect.waitForBlank
  | .logicClearsFlag => dialect.logicClearsFlag
  | .scaleScrolls => dialect.scaleScrolls

namespace Instruction

/-- The switches that an instruction consults. Scrolls do so in low resolution only. -/
def consulted (highResolution : Bool) : Instruction → List Switch
  | .arithmetic .shiftRight _ _ | .arithmetic .shiftLeft _ _ => [.shiftInPlace]
  | .arithmetic .or _ _ | .arithmetic .and _ _ | .arithmetic .xor _ _ => [.logicClearsFlag]
  | .storeThrough _ | .loadThrough _ => [.keepIndex, .shortAdvance]
  | .draw _ _ _ => [.wrapSprites]
  | .jumpOffset _ _ => [.jumpByTopDigit]
  | .scroll _ => if highResolution then [] else [.scaleScrolls]
  | _ => []

def drawsRandom : Instruction → Bool
  | .random _ _ => true
  | _ => false

end Instruction

namespace Machine

/-- No instruction changes the dialect. -/
theorem dialect_execute (machine : Machine) (instruction : Instruction) :
    (machine.execute instruction).state.cpu.dialect = machine.cpu.dialect := by
  cases hkeeps : instruction.keepsContext with
  | true => exact congrArg Prod.fst (machine.context_execute hkeeps)
  | false =>
    cases instruction with
    | call target =>
      simp only [execute, call]
      cases machine.cpu.stack.push? machine.cpu.counter <;> rfl
    | returnFromCall =>
      simp only [execute, returnFromCall]
      cases machine.cpu.stack.pop? <;> rfl
    | exit | setDelay _ => rfl
    | _ => cases hkeeps

theorem dialect_step (machine : Machine) :
    machine.step.state.cpu.dialect = machine.cpu.dialect := by
  rw [state_step (·.cpu.dialect) fun _ _ => rfl]
  exact machine.fetched.dialect_execute machine.next

end Machine

/-- Other dialects, for the settings and for the processor's copy of them, and another random
source. -/
structure Disguise where
  configured : Dialect → Dialect := id
  executed : Dialect → Dialect := id
  random : RandomSource → RandomSource := id

namespace Disguise

def processor (disguise : Disguise) (cpu : Processor) : Processor :=
  { cpu with
    dialect := disguise.executed cpu.dialect
    random := disguise.random cpu.random }

def machine (disguise : Disguise) (machine : Machine) : Machine :=
  machine.onCpu disguise.processor

variable (disguise : Disguise)

theorem processor_setAll (cpu : Processor) (registers : List Register) (values : List UInt8) :
    (disguise.processor cpu).setAll registers values =
      disguise.processor (cpu.setAll registers values) := by
  induction registers generalizing cpu values with
  | nil => rfl
  | cons x registers ih =>
    cases values with
    | nil => rfl
    | cons value values => exact ih (cpu.set x value) values

theorem processor_setLogic (cpu : Processor) (x : Register) (value : UInt8)
    (h : (disguise.executed cpu.dialect).logicClearsFlag = cpu.dialect.logicClearsFlag) :
    (disguise.processor cpu).setLogic x value = disguise.processor (cpu.setLogic x value) := by
  have hswitch : ((disguise.processor cpu).set x value).dialect.logicClearsFlag =
      (cpu.set x value).dialect.logicClearsFlag := h
  simp only [Processor.setLogic, hswitch]
  split <;> rfl

theorem shiftOperand_processor (cpu : Processor) (x y : Register)
    (h : (disguise.executed cpu.dialect).shiftInPlace = cpu.dialect.shiftInPlace) :
    (disguise.processor cpu).shiftOperand x y = cpu.shiftOperand x y := by
  have hswitch : (disguise.processor cpu).dialect.shiftInPlace = cpu.dialect.shiftInPlace := h
  simp only [Processor.shiftOperand, hswitch]
  rfl

theorem processor_compute (cpu : Processor) (operation : Arithmetic) (x y : Register)
    {highResolution : Bool}
    (h : ∀ switch ∈ (Instruction.arithmetic operation x y).consulted highResolution,
      (disguise.executed cpu.dialect).isOn switch = cpu.dialect.isOn switch) :
    (disguise.processor cpu).compute operation x y =
      disguise.processor (cpu.compute operation x y) := by
  cases operation with
  | or | and | xor =>
    exact disguise.processor_setLogic cpu x _
      (h .logicClearsFlag (by simp [Instruction.consulted]))
  | shiftRight | shiftLeft =>
    have hoperand := disguise.shiftOperand_processor cpu x y
      (h .shiftInPlace (by simp [Instruction.consulted]))
    simp only [Processor.compute, hoperand]
    rfl
  | _ => rfl

theorem offsetTarget_processor (cpu : Processor) (x : Register) (base : ShortAddress)
    (h : (disguise.executed cpu.dialect).jumpByTopDigit = cpu.dialect.jumpByTopDigit) :
    (disguise.processor cpu).offsetTarget x base = cpu.offsetTarget x base := by
  have hswitch : (disguise.processor cpu).dialect.jumpByTopDigit = cpu.dialect.jumpByTopDigit := h
  simp only [Processor.offsetTarget, hswitch]
  rfl

theorem processor_advanceIndex (cpu : Processor) (x : Register)
    (hkeep : (disguise.executed cpu.dialect).keepIndex = cpu.dialect.keepIndex)
    (hshort : (disguise.executed cpu.dialect).shortAdvance = cpu.dialect.shortAdvance) :
    (disguise.processor cpu).advanceIndex x = disguise.processor (cpu.advanceIndex x) := by
  have hindex : (disguise.processor cpu).dialect.advanceIndex cpu.index (UInt8.ofNat x.val) =
      cpu.dialect.advanceIndex cpu.index (UInt8.ofNat x.val) := by
    simp only [Dialect.advanceIndex, processor, hkeep, hshort]
  simp only [Processor.advanceIndex]
  exact congrArg (fun index => disguise.processor { cpu with index }) hindex

theorem processor_drawRandom (cpu : Processor) (x : Register) (mask : UInt8)
    (h : ∀ source, disguise.random source = source) :
    (disguise.processor cpu).drawRandom x mask = disguise.processor (cpu.drawRandom x mask) := by
  simp only [Processor.drawRandom, processor, h]
  generalize cpu.random.next = drawn
  simp only [Processor.set]

theorem processor_saveFlags (cpu : Processor) (x : Register) :
    (disguise.processor cpu).saveFlags x = disguise.processor (cpu.saveFlags x) := by
  simp only [Processor.saveFlags, Processor.get, processor]

theorem processor_restoreFlags (cpu : Processor) (x : Register) :
    (disguise.processor cpu).restoreFlags x = disguise.processor (cpu.restoreFlags x) := by
  simp only [Processor.restoreFlags, Processor.get, processor]

/-- What works alike on the processors works alike on the machines. -/
theorem machine_onCpu {change : Processor → Processor} (machine : Machine)
    (h : change (disguise.processor machine.cpu) = disguise.processor (change machine.cpu)) :
    (disguise.machine machine).onCpu change = disguise.machine (machine.onCpu change) :=
  congrArg (fun cpu => { machine with cpu }) h

theorem machine_load (machine : Machine) (registers : List Register) :
    (disguise.machine machine).load registers = disguise.machine (machine.load registers) :=
  disguise.machine_onCpu machine (disguise.processor_setAll machine.cpu _ _)

theorem scroll_machine (machine : Machine) (move : Scroll)
    (h : machine.screen.highResolution = false →
      (disguise.executed machine.cpu.dialect).scaleScrolls = machine.cpu.dialect.scaleScrolls) :
    machine.screen.scroll (disguise.executed machine.cpu.dialect).scaleScrolls move =
      machine.screen.scroll machine.cpu.dialect.scaleScrolls move := by
  cases hhigh : machine.screen.highResolution with
  | false => rw [h hhigh]
  | true =>
    -- A logical pixel is one raster pixel here, so that scaling changes nothing.
    have hdistance (distance : Nat) (scaled : Bool) :
        machine.screen.scrollDistance distance scaled = distance := by
      simp [Screen.scrollDistance, Screen.scale, hhigh]
    cases move <;>
      simp only [Screen.scroll, Screen.scrollDown, Screen.scrollUp, Screen.scrollLeft,
        Screen.scrollRight, hdistance]

theorem execute_machine (machine : Machine) (instruction : Instruction)
    (hswitches : ∀ switch ∈ instruction.consulted machine.screen.highResolution,
      (disguise.executed machine.cpu.dialect).isOn switch = machine.cpu.dialect.isOn switch)
    (hrandom : instruction.drawsRandom = true → ∀ source, disguise.random source = source) :
    (disguise.machine machine).execute instruction =
      (machine.execute instruction).map disguise.machine := by
  cases instruction with
  | scroll move =>
    have hscreen := disguise.scroll_machine machine move fun hlow =>
      hswitches .scaleScrolls (by simp [Instruction.consulted, hlow])
    exact congrArg (fun screen => Outcome.done (disguise.machine { machine with screen })) hscreen
  | call target =>
    have hstack : (disguise.machine machine).cpu.stack = machine.cpu.stack := rfl
    have hcounter : (disguise.machine machine).cpu.counter = machine.cpu.counter := rfl
    simp only [Machine.execute, Machine.call, hstack, hcounter]
    cases machine.cpu.stack.push? machine.cpu.counter <;> rfl
  | returnFromCall =>
    have hstack : (disguise.machine machine).cpu.stack = machine.cpu.stack := rfl
    simp only [Machine.execute, Machine.returnFromCall, hstack]
    cases machine.cpu.stack.pop? <;> rfl
  | skip condition =>
    have hholds : (disguise.machine machine).holds condition = machine.holds condition := by
      cases condition <;> rfl
    simp only [Machine.execute, Machine.skipIf, hholds]
    split <;> rfl
  | arithmetic operation x y =>
    exact congrArg Outcome.done (disguise.machine_onCpu machine
      (disguise.processor_compute machine.cpu operation x y hswitches))
  | jumpOffset x base =>
    have htarget := disguise.offsetTarget_processor machine.cpu x base
      (hswitches .jumpByTopDigit (by simp [Instruction.consulted]))
    refine congrArg Outcome.done (disguise.machine_onCpu machine ?_)
    rw [htarget]
    rfl
  | random x mask =>
    exact congrArg Outcome.done (disguise.machine_onCpu machine
      (disguise.processor_drawRandom machine.cpu x mask (hrandom rfl)))
  | draw x y rows =>
    have hwrap : (disguise.machine machine).cpu.dialect.wrapSprites =
        machine.cpu.dialect.wrapSprites :=
      hswitches .wrapSprites (by simp [Instruction.consulted])
    simp only [Machine.execute, Machine.draw, hwrap]
    rfl
  | awaitKey x =>
    have hkeypad : (disguise.machine machine).keypad = machine.keypad := rfl
    simp only [Machine.execute, Machine.awaitKey, hkeypad]
    cases machine.keypad.released? <;> rfl
  | loadRange x y => exact congrArg Outcome.done (disguise.machine_load machine _)
  | storeThrough x =>
    exact congrArg Outcome.done (disguise.machine_onCpu (machine.store (Processor.span 0 x))
      (disguise.processor_advanceIndex machine.cpu x
        (hswitches .keepIndex (by simp [Instruction.consulted]))
        (hswitches .shortAdvance (by simp [Instruction.consulted]))))
  | loadThrough x =>
    have hdialect : (machine.load (Processor.span 0 x)).cpu.dialect = machine.cpu.dialect :=
      machine.dialect_execute (.loadRange 0 x)
    rw [Machine.execute, disguise.machine_load]
    refine congrArg Outcome.done (disguise.machine_onCpu _ ?_)
    apply disguise.processor_advanceIndex
    · rw [hdialect]
      exact hswitches .keepIndex (by simp [Instruction.consulted])
    · rw [hdialect]
      exact hswitches .shortAdvance (by simp [Instruction.consulted])
  | saveFlags x =>
    exact congrArg Outcome.done (disguise.machine_onCpu machine
      (disguise.processor_saveFlags machine.cpu x))
  | restoreFlags x =>
    exact congrArg Outcome.done (disguise.machine_onCpu machine
      (disguise.processor_restoreFlags machine.cpu x))
  | loadPattern =>
    have hmemory : (disguise.machine machine).memory = machine.memory := rfl
    have hindex : (disguise.machine machine).cpu.index = machine.cpu.index := rfl
    simp only [Machine.execute, hmemory, hindex]
    rfl
  | _ => rfl

/-- A step works alike if the instruction at the counter does, in its result and in its fault. -/
theorem step_machine (machine : Machine)
    (hswitches : ∀ switch ∈ machine.next.consulted machine.screen.highResolution,
      (disguise.executed machine.cpu.dialect).isOn switch = machine.cpu.dialect.isOn switch)
    (hrandom : machine.next.drawsRandom = true → ∀ source, disguise.random source = source) :
    (disguise.machine machine).step = machine.step.map disguise.machine := by
  have hexecute := disguise.execute_machine machine.fetched machine.next hswitches hrandom
  have hfetched : (disguise.machine machine).fetched = disguise.machine machine.fetched := rfl
  have hnext : (disguise.machine machine).next = machine.next := rfl
  rw [Machine.step_eq, Machine.step_eq, hfetched, hnext, hexecute]
  cases machine.fetched.execute machine.next <;> rfl

end Disguise

end ChipEight
