import ChipEight.Fault
import ChipEight.Machine

/-!
What each instruction does. Only calls and returns can fail; every other instruction succeeds
in every state.
-/

namespace ChipEight.Machine

def holds (machine : Machine) : Condition → Bool
  | .equalsByte x value => machine.cpu.get x = value
  | .differsByte x value => machine.cpu.get x ≠ value
  | .equals x y => machine.cpu.get x = machine.cpu.get y
  | .differs x y => machine.cpu.get x ≠ machine.cpu.get y
  | .keyDown x => machine.keypad.isByteDown (machine.cpu.get x)
  | .keyUp x => !machine.keypad.isByteDown (machine.cpu.get x)

def skipIf (machine : Machine) (condition : Condition) : Machine :=
  if machine.holds condition then machine.onCpu (·.skipNext machine.memory) else machine

/-- The return address is the counter, which is past the call already. -/
def call (machine : Machine) (target : ShortAddress) : Outcome Machine :=
  match machine.cpu.stack.push? machine.cpu.counter with
  | some stack => .done (machine.onCpu fun cpu => { cpu with stack, counter := target.toAddress })
  | none => .fault (.callStackFull target) machine

def returnFromCall (machine : Machine) : Outcome Machine :=
  match machine.cpu.stack.pop? with
  | some (address, stack) => .done (machine.onCpu fun cpu => { cpu with stack, counter := address })
  | none => .fault (.callStackEmpty (machine.cpu.counter - 2)) machine

/-- The sprite at the index; no rows stand for sixteen rows of two bytes each. -/
def spriteAtIndex (machine : Machine) (rows : Nibble) : Sprite :=
  let (width, height, bytesPerRow) := if rows = 0 then (16, 16, 2) else (8, rows.val, 1)
  let length := height * bytesPerRow * machine.screen.selectedCount
  { width, height, bytesPerRow, data := machine.memory.slice machine.cpu.index length }

/-- Draws at the position in two registers; the flag tells whether a lit pixel was hit. -/
def draw (machine : Machine) (x y : Register) (rows : Nibble) : Machine :=
  let sprite := machine.spriteAtIndex rows
  let (screen, hits) :=
    machine.screen.draw sprite (machine.cpu.get x) (machine.cpu.get y)
      machine.cpu.dialect.wrapSprites
  { machine with screen }.onCpu (·.setFlag (0 < hits))

/-- Takes the key that was let go, or else makes the instruction run again. -/
def awaitKey (machine : Machine) (x : Register) : Machine :=
  match machine.keypad.released? with
  | some key => machine.onCpu (·.set x (UInt8.ofNat key.val))
  | none => machine.onCpu fun cpu => cpu.jump (cpu.counter - 2)

/-- Hundreds, tens and ones. -/
def decimalDigits (value : UInt8) : List UInt8 :=
  [value / 100, value % 100 / 10, value % 10]

def store (machine : Machine) (registers : List Register) : Machine :=
  machine.storeAtIndex (registers.map machine.cpu.get)

def load (machine : Machine) (registers : List Register) : Machine :=
  machine.onCpu fun cpu =>
    cpu.setAll registers (machine.memory.readAll cpu.index registers.length)

/-- Executes one instruction; the counter is past its first word already. -/
def execute (machine : Machine) : Instruction → Outcome Machine
  | .native _ => .done machine
  | .scroll move => .done (machine.onScreen (·.scroll machine.cpu.dialect.scaleScrolls move))
  | .clearScreen => .done (machine.onScreen (·.clear))
  | .returnFromCall => machine.returnFromCall
  | .exit => .done (machine.onCpu (·.restart))
  | .setResolution high => .done (machine.onScreen (·.setResolution high))
  | .jump target => .done (machine.onCpu (·.jump target.toAddress))
  | .call target => machine.call target
  | .skip condition => .done (machine.skipIf condition)
  | .storeRange x y => .done (machine.store (Processor.span x y))
  | .loadRange x y => .done (machine.load (Processor.span x y))
  | .setByte x value => .done (machine.onCpu (·.set x value))
  | .addByte x value => .done (machine.onCpu fun cpu => cpu.set x (cpu.get x + value))
  | .arithmetic operation x y => .done (machine.onCpu (·.compute operation x y))
  | .setIndex target => .done (machine.onCpu ({ · with index := target.toAddress }))
  | .jumpOffset x base => .done (machine.onCpu fun cpu => cpu.jump (cpu.offsetTarget x base))
  | .random x mask => .done (machine.onCpu (·.drawRandom x mask))
  | .draw x y rows => .done (machine.draw x y rows)
  | .setIndexLong =>
    .done (machine.onCpu fun cpu =>
      let (word, cpu) := cpu.fetch machine.memory
      { cpu with index := word })
  | .selectPlanes mask => .done (machine.onScreen (·.selectPlanes mask.val))
  | .loadPattern => .done (machine.onSound (·.loadPattern machine.memory machine.cpu.index))
  | .readDelay x => .done (machine.onCpu fun cpu => cpu.set x cpu.delay.remaining)
  | .awaitKey x => .done (machine.awaitKey x)
  | .setDelay x => .done (machine.onCpu fun cpu => { cpu with delay := ⟨cpu.get x⟩ })
  | .setSound x => .done (machine.onSound (·.setTimer (machine.cpu.get x)))
  | .addToIndex x =>
    .done (machine.onCpu fun cpu => { cpu with index := cpu.index + (cpu.get x).toUInt16 })
  | .pointToDigit x =>
    .done (machine.onCpu fun cpu =>
      { cpu with
        index := Processor.glyphAddress Memory.fontStart Font.smallHeight (cpu.get x) })
  | .pointToBigDigit x =>
    .done (machine.onCpu fun cpu =>
      { cpu with
        index := Processor.glyphAddress Memory.bigFontStart Font.bigHeight (cpu.get x) })
  | .storeDecimal x => .done (machine.storeAtIndex (decimalDigits (machine.cpu.get x)))
  | .setPitch x => .done (machine.onSound (·.setPitch (machine.cpu.get x)))
  | .storeThrough x => .done ((machine.store (Processor.span 0 x)).onCpu (·.advanceIndex x))
  | .loadThrough x => .done ((machine.load (Processor.span 0 x)).onCpu (·.advanceIndex x))
  | .saveFlags x => .done (machine.onCpu (·.saveFlags x))
  | .restoreFlags x => .done (machine.onCpu (·.restoreFlags x))
  | .unknown _ => .done machine

/-- Fetches, decodes and executes one instruction. A fault puts the counter back. -/
def step (machine : Machine) : Outcome Machine :=
  let start := machine.cpu.counter
  let (word, cpu) := machine.cpu.fetch machine.memory
  match { machine with cpu }.execute (Instruction.decode word) with
  | .done machine => .done machine
  | .fault reason machine => .fault reason (machine.onCpu (·.jump start))

end ChipEight.Machine
