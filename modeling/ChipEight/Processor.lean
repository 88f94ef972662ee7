import ChipEight.CallStack
import ChipEight.Dialect
import ChipEight.Instruction.Decode
import ChipEight.Memory
import ChipEight.Random
import ChipEight.Timer

/-!
The registers of the processor, its dialect and its source of random bytes, with the
operations that concern these alone.
-/

namespace ChipEight

structure Processor where
  registers : Vector UInt8 16 := Vector.replicate 16 0
  index : Address := 0
  /-- Address of the next instruction. -/
  counter : Address := Memory.programStart
  stack : CallStack := .empty
  delay : Timer := { }
  /-- Registers that outlive a restart of the program. -/
  flags : Vector UInt8 16 := Vector.replicate 16 0
  dialect : Dialect
  random : RandomSource

namespace Processor

/-- The register that holds carries, borrows and collisions. -/
def flagRegister : Register := 15

def get (cpu : Processor) (x : Register) : UInt8 :=
  cpu.registers[x]

def set (cpu : Processor) (x : Register) (value : UInt8) : Processor :=
  { cpu with registers := cpu.registers.set x value }

def setFlag (cpu : Processor) (flag : Bool) : Processor :=
  cpu.set flagRegister (if flag then 1 else 0)

def jump (cpu : Processor) (address : Address) : Processor :=
  { cpu with counter := address }

/-- The word at the counter, which moves past it. -/
def fetch (cpu : Processor) (memory : Memory) : UInt16 × Processor :=
  (memory.readWord cpu.counter, cpu.jump (cpu.counter + 2))

/-- Length in bytes of the instruction that begins with a word. -/
def lengthOf (word : UInt16) : UInt16 :=
  if word = Instruction.longLoad then 4 else 2

def skipNext (cpu : Processor) (memory : Memory) : Processor :=
  cpu.jump (cpu.counter + lengthOf (memory.readWord cpu.counter))

/-- The program starts over with cleared registers; flags, dialect and random source stay. -/
def restart (cpu : Processor) : Processor :=
  { flags := cpu.flags, dialect := cpu.dialect, random := cpu.random }

/-- As `restart`, with the flags cleared too. -/
def reset (cpu : Processor) : Processor :=
  { dialect := cpu.dialect, random := cpu.random }

def tickDelay (cpu : Processor) : Processor :=
  { cpu with delay := cpu.delay.tick }

/-- Operand of a shift. -/
def shiftOperand (cpu : Processor) (x y : Register) : UInt8 :=
  if cpu.dialect.shiftInPlace then cpu.get x else cpu.get y

/-- Puts a result into a register and then a flag into the flag register. -/
def setWithFlag (cpu : Processor) (x : Register) (value : UInt8) (flag : Bool) : Processor :=
  (cpu.set x value).setFlag flag

/-- Puts the result of a bitwise operation into a register. -/
def setLogic (cpu : Processor) (x : Register) (value : UInt8) : Processor :=
  let cpu := cpu.set x value
  if cpu.dialect.logicClearsFlag then cpu.setFlag false else cpu

def compute (cpu : Processor) (operation : Arithmetic) (x y : Register) : Processor :=
  let a := cpu.get x
  let b := cpu.get y
  match operation with
  | .copy => cpu.set x b
  | .or => cpu.setLogic x (a ||| b)
  | .and => cpu.setLogic x (a &&& b)
  | .xor => cpu.setLogic x (a ^^^ b)
  | .add => cpu.setWithFlag x (a + b) (255 < a.toNat + b.toNat)
  | .subtract => cpu.setWithFlag x (a - b) (b ≤ a)
  | .subtractFrom => cpu.setWithFlag x (b - a) (a ≤ b)
  | .shiftRight =>
    let operand := cpu.shiftOperand x y
    cpu.setWithFlag x (operand >>> 1) (operand &&& 1 = 1)
  | .shiftLeft =>
    let operand := cpu.shiftOperand x y
    cpu.setWithFlag x (operand <<< 1) (128 ≤ operand)

/-- The target of a jump with an offset. -/
def offsetTarget (cpu : Processor) (x : Register) (base : ShortAddress) : Address :=
  let offset := if cpu.dialect.jumpByTopDigit then cpu.get x else cpu.get 0
  base.toAddress + offset.toUInt16

def drawRandom (cpu : Processor) (x : Register) (mask : UInt8) : Processor :=
  let (byte, random) := cpu.random.next
  { cpu with random }.set x (byte &&& mask)

/-- Registers from `x` to `y`, backwards when `x` is the greater. -/
def span (x y : Register) : List Register :=
  let registers := List.finRange 16
  if x ≤ y then registers.filter fun r => x ≤ r && r ≤ y
  else (registers.filter fun r => y ≤ r && r ≤ x).reverse

/-- Gives registers new values, in order and as far as there are values. -/
def setAll (cpu : Processor) : List Register → List UInt8 → Processor
  | x :: xs, value :: values => (cpu.set x value).setAll xs values
  | _, _ => cpu

/-- The index after the registers up to `x` were stored or loaded. -/
def advanceIndex (cpu : Processor) (x : Register) : Processor :=
  { cpu with index := cpu.dialect.advanceIndex cpu.index (UInt8.ofNat x.val) }

/-- Copies the registers up to `x` to the flags. -/
def saveFlags (cpu : Processor) (x : Register) : Processor :=
  { cpu with
    flags := Vector.ofFn fun r : Register => if r ≤ x then cpu.get r else cpu.flags[r] }

def restoreFlags (cpu : Processor) (x : Register) : Processor :=
  { cpu with
    registers := Vector.ofFn fun r : Register => if r ≤ x then cpu.flags[r] else cpu.get r }

/-- Where the glyph of a digit begins; the low four bits of the value are the digit. -/
def glyphAddress (start : Address) (height : Nat) (value : UInt8) : Address :=
  start + UInt16.ofNat (value.toNat % 16 * height)

end Processor

end ChipEight
