import ChipEight.Processor
import ChipEight.Proofs.Checked.Operands
import Mathlib.Data.List.FinRange

/-!
Registers and memory under plain numbers, each access checked, and what the processor computes
from them.
-/

namespace ChipEight

namespace Checked

section Memory

variable (memory : Memory) (address : Address)

def read : Checked UInt8 :=
  get memory.bytes address.toNat

def write (value : UInt8) : Checked Memory := do
  let bytes ← set memory.bytes address.toNat value
  return { memory with bytes }

def readWord : Checked UInt16 := do
  let high ← read memory address
  let low ← read memory (address + 1)
  return high.toUInt16 <<< 8 ||| low.toUInt16

/-- At most `count` bytes from an address on, cut short where the memory ends. -/
def readSprite (count : Nat) : Checked (List UInt8) := do
  let stop ← add .size address.toNat count
  slice memory.bytes address.toNat (min stop 65536)

theorem read_eq : read memory address = .ok (memory.read address) :=
  get_eq memory.bytes ⟨address.toNat, address.toNat_lt⟩

theorem write_eq (value : UInt8) :
    write memory address value = .ok (memory.write address value) := by
  rw [write, set_eq memory.bytes ⟨address.toNat, address.toNat_lt⟩]
  rfl

theorem readWord_eq : readWord memory address = .ok (memory.readWord address) := by
  rw [readWord, read_eq, ok_bind, read_eq]
  rfl

theorem readAll_eq {count : Nat} (h : address.toNat + count ≤ 65536) :
    (memory.bytes.toList.drop address.toNat).take count = memory.readAll address count := by
  induction count generalizing address with
  | zero => rfl
  | succ count ih =>
    have hlt : address.toNat < memory.bytes.toList.length := by
      rw [Vector.length_toList]
      exact address.toNat_lt
    rw [List.drop_eq_getElem_cons hlt, List.take_succ_cons, Memory.readAll]
    refine List.cons_eq_cons.mpr ⟨Vector.getElem_toList _, ?_⟩
    cases count with
    | zero => rfl
    | succ count =>
      have hnext : (address + 1).toNat = address.toNat + 1 := by
        rw [UInt16.toNat_add, UInt16.toNat_one]
        exact Nat.mod_eq_of_lt (by omega)
      rw [← hnext]
      exact ih (address + 1) (by omega)

theorem readSprite_eq {count : Nat} (h : count ≤ 128) :
    readSprite memory address count = .ok (memory.slice address count) := by
  have haddress := address.toNat_lt
  rw [readSprite, add_eq (by simp only [Width.bound]; omega), ok_bind, slice_eq _ (by omega)
    (Nat.min_le_right _ _), readAll_eq memory address (by omega), Memory.slice]
  congr 2
  omega

end Memory

section Registers

variable (cpu : Processor)

def setRegister (x : Nat) (value : UInt8) : Checked Processor := do
  let registers ← set cpu.registers x value
  return { cpu with registers }

def setFlag (flag : Bool) : Checked Processor :=
  setRegister cpu 15 (if flag then 1 else 0)

def fetch (memory : Memory) : Checked (UInt16 × Processor) := do
  let word ← readWord memory cpu.counter
  return (word, cpu.jump (cpu.counter + 2))

def skipNextIf (memory : Memory) (condition : Bool) : Checked Processor :=
  if condition then do
    let fetched ← fetch cpu memory
    if fetched.1 = Instruction.longLoad then return fetched.2.jump (fetched.2.counter + 2)
    else return fetched.2
  else return cpu

theorem get_register (x : Register) : get cpu.registers x.val = .ok (cpu.get x) :=
  get_eq cpu.registers x

theorem setRegister_eq (x : Register) (value : UInt8) :
    setRegister cpu x.val value = .ok (cpu.set x value) := by
  rw [setRegister, set_eq]
  rfl

theorem setFlag_eq (flag : Bool) : setFlag cpu flag = .ok (cpu.setFlag flag) :=
  setRegister_eq cpu Processor.flagRegister _

theorem fetch_eq (memory : Memory) : fetch cpu memory = .ok (cpu.fetch memory) := by
  rw [fetch, readWord_eq]
  rfl

theorem skipNextIf_eq (memory : Memory) (condition : Bool) :
    skipNextIf cpu memory condition = .ok (if condition then cpu.skipNext memory else cpu) := by
  cases condition with
  | false => rfl
  | true =>
    rw [skipNextIf, if_pos rfl, if_pos rfl, fetch_eq, ok_bind, Processor.skipNext,
      Processor.lengthOf]
    have hword : (cpu.fetch memory).1 = memory.readWord cpu.counter := rfl
    rw [← hword]
    by_cases hlong : (cpu.fetch memory).1 = Instruction.longLoad
    · rw [if_pos hlong, if_pos hlong]
      exact congrArg (fun counter => Except.ok (cpu.jump counter)) (UInt16.add_assoc _ 2 2)
    · rw [if_neg hlong, if_neg hlong]
      rfl

end Registers

section Operations

/-- The flag register goes last. -/
def setWithFlag (cpu : Processor) (x : Nat) (value : UInt8) (flag : Bool) : Checked Processor := do
  let cpu ← setRegister cpu x value
  setFlag cpu flag

def setLogic (cpu : Processor) (x : Nat) (value : UInt8) : Checked Processor := do
  let cpu ← setRegister cpu x value
  if cpu.dialect.logicClearsFlag then setFlag cpu false else return cpu

def shiftOperand (cpu : Processor) (x y : Nat) : Checked UInt8 :=
  if cpu.dialect.shiftInPlace then get cpu.registers x else get cpu.registers y

def compute (cpu : Processor) (operation : Arithmetic) (x y : Nat) : Checked Processor := do
  let a ← get cpu.registers x
  let b ← get cpu.registers y
  match operation with
  | .copy => setRegister cpu x b
  | .or => setLogic cpu x (a ||| b)
  | .and => setLogic cpu x (a &&& b)
  | .xor => setLogic cpu x (a ^^^ b)
  | .add => setWithFlag cpu x (a + b) (255 < a.toNat + b.toNat)
  | .subtract => setWithFlag cpu x (a - b) (b ≤ a)
  | .subtractFrom => setWithFlag cpu x (b - a) (a ≤ b)
  | .shiftRight =>
    let operand ← shiftOperand cpu x y
    setWithFlag cpu x (operand >>> 1) (operand &&& 1 = 1)
  | .shiftLeft =>
    let operand ← shiftOperand cpu x y
    setWithFlag cpu x (operand <<< 1) (128 ≤ operand)

def jumpOffset (cpu : Processor) (x : Nat) : Checked UInt8 :=
  if cpu.dialect.jumpByTopDigit then get cpu.registers x else get cpu.registers 0

/-- The base of the jump and the offset must add up to an address. -/
def offsetTarget (cpu : Processor) (x base : Nat) : Checked Address := do
  let offset ← jumpOffset cpu x
  let target ← add .word base offset.toNat
  return UInt16.ofNat target

def glyphAddress (start : Address) (height : Nat) (value : UInt8) : Checked Address := do
  let distance ← mul .word (value.toNat &&& 0xF) height
  let address ← add .word start.toNat distance
  return UInt16.ofNat address

/-- Hundreds, tens and ones. -/
def decimalDigits (value : UInt8) : Checked (List UInt8) := do
  let hundreds ← div value.toNat 100
  let rest ← rem value.toNat 100
  let tens ← div rest 10
  let ones ← rem value.toNat 10
  return [UInt8.ofNat hundreds, UInt8.ofNat tens, UInt8.ofNat ones]

def advanceIndex (cpu : Processor) (x : Nat) : Checked Processor :=
  if cpu.dialect.keepIndex then return cpu
  else if cpu.dialect.shortAdvance then return { cpu with index := cpu.index + UInt16.ofNat x }
  else do
    let count ← add .word x 1
    return { cpu with index := cpu.index + UInt16.ofNat count }

/-- The registers from `x` to `y`, backwards if `x` is the greater, as numbers of a byte. -/
def registerRange (x y : Nat) : Checked (List Nat) :=
  let distance := if x ≤ y then y - x else x - y
  (List.range (distance + 1)).mapM fun step => if x ≤ y then add .byte x step else sub x step

/-- The registers of one file up to `x`, copied to the other; their count must be in range. -/
def copyThrough (source goal : Vector UInt8 16) (x : Nat) : Checked (Vector UInt8 16) := do
  let count ← add .size x 1
  if count ≤ 16 then
    return Vector.ofFn fun r => if r.val < count then source.get r else goal.get r
  else .error (.outOfRange count 16)

def saveFlags (cpu : Processor) (x : Nat) : Checked Processor := do
  let flags ← copyThrough cpu.registers cpu.flags x
  return { cpu with flags }

def restoreFlags (cpu : Processor) (x : Nat) : Checked Processor := do
  let registers ← copyThrough cpu.flags cpu.registers x
  return { cpu with registers }

theorem setWithFlag_eq (cpu : Processor) (x : Register) (value : UInt8) (flag : Bool) :
    setWithFlag cpu x.val value flag = .ok (cpu.setWithFlag x value flag) := by
  rw [setWithFlag, setRegister_eq, ok_bind, setFlag_eq]
  rfl

theorem setLogic_eq (cpu : Processor) (x : Register) (value : UInt8) :
    setLogic cpu x.val value = .ok (cpu.setLogic x value) := by
  rw [setLogic, setRegister_eq, ok_bind, setFlag_eq, Processor.setLogic]
  split <;> rfl

theorem shiftOperand_eq (cpu : Processor) (x y : Register) :
    shiftOperand cpu x.val y.val = .ok (cpu.shiftOperand x y) := by
  rw [shiftOperand, get_register, get_register, Processor.shiftOperand]
  split <;> rfl

theorem compute_eq (cpu : Processor) (operation : Arithmetic) (x y : Register) :
    compute cpu operation x.val y.val = .ok (cpu.compute operation x y) := by
  rw [compute, get_register, ok_bind, get_register, ok_bind]
  cases operation with
  | copy => exact setRegister_eq cpu x _
  | or | and | xor => exact setLogic_eq cpu x _
  | add | subtract | subtractFrom => exact setWithFlag_eq cpu x _ _
  | shiftRight | shiftLeft =>
    rw [shiftOperand_eq, ok_bind]
    exact setWithFlag_eq cpu x _ _

theorem offsetTarget_eq (cpu : Processor) (x : Register) (base : ShortAddress) :
    offsetTarget cpu x.val base.val = .ok (cpu.offsetTarget x base) := by
  have hoffset : jumpOffset cpu x.val =
      .ok (if cpu.dialect.jumpByTopDigit then cpu.get x else cpu.get 0) := by
    rw [jumpOffset, get_register, apply_ite Except.ok]
    exact if_congr Iff.rfl rfl (get_register cpu 0)
  have hfits (offset : UInt8) : base.val + offset.toNat < Width.bound .word := by
    have hbase := base.isLt
    have hlt := offset.toNat_lt
    simp only [Width.bound]
    omega
  rw [offsetTarget, hoffset, ok_bind, add_eq (hfits _), ok_bind, pure_eq_ok, UInt16.ofNat_add,
    UInt16.ofNat_uInt8ToNat]
  rfl

theorem glyphAddress_eq {start : Address} {height : Nat} (hstart : start.toNat ≤ 160)
    (hheight : height ≤ 10) (value : UInt8) :
    glyphAddress start height value = .ok (Processor.glyphAddress start height value) := by
  have hdigit : value.toNat % 16 * height ≤ 15 * 10 :=
    Nat.mul_le_mul (Nat.le_of_lt_succ (Nat.mod_lt _ (by omega))) hheight
  rw [glyphAddress, Operands.and_fifteen, mul_eq (by simp only [Width.bound]; omega), ok_bind,
    add_eq (by simp only [Width.bound]; omega), ok_bind, pure_eq_ok, UInt16.ofNat_add,
    UInt16.ofNat_toNat]
  rfl

theorem decimalDigits_eq (value : UInt8) :
    decimalDigits value = .ok [value / 100, value % 100 / 10, value % 10] := by
  have hdigit {digit : UInt8} {a : Nat} (h : digit.toNat = a) : UInt8.ofNat a = digit := by
    rw [← h, UInt8.ofNat_toNat]
  have hhundreds : (value / 100).toNat = value.toNat / 100 := UInt8.toNat_div _ _
  have htens : (value % 100 / 10).toNat = value.toNat % 100 / 10 := UInt8.toNat_div _ _
  have hones : (value % 10).toNat = value.toNat % 10 := UInt8.toNat_mod _ _
  rw [decimalDigits, div_eq (by omega), ok_bind, rem_eq (by omega), ok_bind, div_eq (by omega),
    ok_bind, rem_eq (by omega), ok_bind, pure_eq_ok, hdigit hhundreds, hdigit htens, hdigit hones]

theorem advanceIndex_eq (cpu : Processor) (x : Register) :
    advanceIndex cpu x.val = .ok (cpu.advanceIndex x) := by
  have hx : UInt16.ofNat x.val = (UInt8.ofNat x.val).toUInt16 := by
    rw [← UInt16.ofNat_uInt8ToNat, UInt8.toNat_ofNat_of_lt' (Nat.lt_trans x.isLt (by decide))]
  have hcount : x.val + 1 < Width.bound .word := by
    simp only [Width.bound]
    omega
  rw [advanceIndex, add_eq hcount, ok_bind, UInt16.ofNat_add, hx, Processor.advanceIndex,
    Dialect.advanceIndex]
  split
  · rfl
  · split <;> rfl

theorem registerRange_eq : ∀ x y : Register,
    registerRange x.val y.val = .ok ((Processor.span x y).map (·.val)) := by
  decide +kernel

theorem range_eq_span : ∀ x : Register,
    List.range (x.val + 1) = (Processor.span 0 x).map (·.val) := by
  decide +kernel

theorem copyThrough_eq (source goal : Vector UInt8 16) (x : Register) :
    copyThrough source goal x.val =
      .ok (Vector.ofFn fun r : Register => if r ≤ x then source.get r else goal.get r) := by
  have hcount : x.val + 1 ≤ 16 := x.isLt
  rw [copyThrough, add_size (by omega), ok_bind, if_pos hcount, pure_eq_ok]
  congr 2
  exact funext fun r => if_congr Nat.lt_succ_iff rfl rfl

theorem saveFlags_eq (cpu : Processor) (x : Register) :
    saveFlags cpu x.val = .ok (cpu.saveFlags x) := by
  rw [saveFlags, copyThrough_eq, Processor.saveFlags]
  rfl

theorem restoreFlags_eq (cpu : Processor) (x : Register) :
    restoreFlags cpu x.val = .ok (cpu.restoreFlags x) := by
  rw [restoreFlags, copyThrough_eq, Processor.restoreFlags]
  rfl

end Operations

end Checked

end ChipEight
