import ChipEight.Proofs.Machine.Footprint

/-!
What the two-register operations leave in the registers. Both operands are read first; then the
result goes to the first register, and only then the flag to the flag register. Where they are the
same register, the flag remains.
-/

namespace ChipEight

namespace Arithmetic

/-- The last digit of the word of an operation. -/
def digit : Arithmetic → Nat
  | .copy => 0x0
  | .or => 0x1
  | .and => 0x2
  | .xor => 0x3
  | .add => 0x4
  | .subtract => 0x5
  | .shiftRight => 0x6
  | .subtractFrom => 0x7
  | .shiftLeft => 0xE

/-- The word of an operation on two registers. -/
def encode (operation : Arithmetic) (x y : Register) : UInt16 :=
  UInt16.ofNat (0x8000 + 0x100 * x.val + 0x10 * y.val + operation.digit)

/-- The result from the values of the two registers. -/
def result (dialect : Dialect) (a b : Nat) : Arithmetic → Nat
  | .copy => b
  | .or => a ||| b
  | .and => a &&& b
  | .xor => a ^^^ b
  | .add => (a + b) % 256
  | .subtract => (a + 256 - b) % 256
  | .subtractFrom => (b + 256 - a) % 256
  | .shiftRight => (if dialect.shiftInPlace then a else b) / 2
  | .shiftLeft => 2 * (if dialect.shiftInPlace then a else b) % 256

/-- The flag that goes with the result. The bitwise operations clear it or leave it alone. -/
def flag? (dialect : Dialect) (a b : Nat) : Arithmetic → Option Bool
  | .copy => none
  | .or | .and | .xor => if dialect.logicClearsFlag then some false else none
  | .add => some (255 < a + b)
  | .subtract => some (b ≤ a)
  | .subtractFrom => some (a ≤ b)
  | .shiftRight => some ((if dialect.shiftInPlace then a else b) % 2 = 1)
  | .shiftLeft => some (128 ≤ if dialect.shiftInPlace then a else b)

theorem decode_encode (operation : Arithmetic) :
    ∀ x y : Register, Instruction.decode (operation.encode x y) = .arithmetic operation x y := by
  cases operation <;> decide +kernel

end Arithmetic

namespace Processor

/-- What a register holds after an operation on the registers `x` and `y`, from their values
before it. The flag register holds the flag if there is one, even if it is `x`. -/
def valueAfter (cpu : Processor) (operation : Arithmetic) (x y r : Register) : Nat :=
  let a := (cpu.get x).toNat
  let b := (cpu.get y).toNat
  let value := if r = x then operation.result cpu.dialect a b else (cpu.get r).toNat
  if r = flagRegister then
    ((operation.flag? cpu.dialect a b).map Bool.toNat).getD value
  else value

theorem toNat_shiftOperand (cpu : Processor) (x y : Register) :
    (cpu.shiftOperand x y).toNat =
      if cpu.dialect.shiftInPlace then (cpu.get x).toNat else (cpu.get y).toNat := by
  rw [shiftOperand]
  split <;> rfl

section Writes

variable (cpu : Processor) (x r : Register) {value : UInt8} {result : Nat}

theorem toNat_get_set (hvalue : value.toNat = result) :
    ((cpu.set x value).get r).toNat = if r = x then result else (cpu.get r).toNat := by
  rw [get_set, apply_ite UInt8.toNat, hvalue]

theorem toNat_get_setFlag (flag : Bool) :
    ((cpu.setFlag flag).get r).toNat =
      if r = flagRegister then flag.toNat else (cpu.get r).toNat := by
  apply toNat_get_set
  cases flag <;> rfl

theorem toNat_get_setWithFlag {flag carry : Bool} (hvalue : value.toNat = result)
    (hflag : flag = carry) :
    ((cpu.setWithFlag x value flag).get r).toNat =
      if r = flagRegister then carry.toNat
      else if r = x then result else (cpu.get r).toNat := by
  rw [setWithFlag, toNat_get_setFlag, cpu.toNat_get_set x r hvalue, hflag]

theorem toNat_get_setLogic (hvalue : value.toNat = result) :
    ((cpu.setLogic x value).get r).toNat =
      if r = flagRegister then
        ((if cpu.dialect.logicClearsFlag then some false else none).map Bool.toNat).getD
          (if r = x then result else (cpu.get r).toNat)
      else if r = x then result else (cpu.get r).toNat := by
  have hdialect : (cpu.set x value).dialect = cpu.dialect := rfl
  simp only [setLogic, hdialect]
  split
  · rw [toNat_get_setFlag, cpu.toNat_get_set x r hvalue]
    rfl
  · rw [cpu.toNat_get_set x r hvalue]
    exact (ite_self _).symm

end Writes

theorem toNat_get_compute (cpu : Processor) (operation : Arithmetic) (x y r : Register) :
    ((cpu.compute operation x y).get r).toNat = cpu.valueAfter operation x y r := by
  have ha := (cpu.get x).toNat_lt
  have hb := (cpu.get y).toNat_lt
  have hoperand := cpu.toNat_shiftOperand x y
  cases operation with
  | copy =>
    have hset := cpu.toNat_get_set x r (rfl : (cpu.get y).toNat = (cpu.get y).toNat)
    exact hset.trans (ite_self _).symm
  | or => exact cpu.toNat_get_setLogic x r (UInt8.toNat_or _ _)
  | and => exact cpu.toNat_get_setLogic x r (UInt8.toNat_and _ _)
  | xor => exact cpu.toNat_get_setLogic x r (UInt8.toNat_xor _ _)
  | add => exact cpu.toNat_get_setWithFlag x r (UInt8.toNat_add _ _) rfl
  | subtract =>
    have hvalue : (cpu.get x - cpu.get y).toNat =
        ((cpu.get x).toNat + 256 - (cpu.get y).toNat) % 256 := by
      rw [UInt8.toNat_sub]
      omega
    exact cpu.toNat_get_setWithFlag x r hvalue (decide_eq_decide.mpr UInt8.le_iff_toNat_le)
  | subtractFrom =>
    have hvalue : (cpu.get y - cpu.get x).toNat =
        ((cpu.get y).toNat + 256 - (cpu.get x).toNat) % 256 := by
      rw [UInt8.toNat_sub]
      omega
    exact cpu.toNat_get_setWithFlag x r hvalue (decide_eq_decide.mpr UInt8.le_iff_toNat_le)
  | shiftRight =>
    have hvalue : (cpu.shiftOperand x y >>> 1).toNat = (cpu.shiftOperand x y).toNat / 2 :=
      UInt8.toNat_shiftRight _ _
    have hflag : cpu.shiftOperand x y &&& 1 = 1 ↔ (cpu.shiftOperand x y).toNat % 2 = 1 := by
      rw [← UInt8.toNat_inj, UInt8.toNat_and, UInt8.toNat_one, Nat.and_one_is_mod]
    rw [hoperand] at hvalue hflag
    exact cpu.toNat_get_setWithFlag x r hvalue (decide_eq_decide.mpr hflag)
  | shiftLeft =>
    have hvalue : (cpu.shiftOperand x y <<< 1).toNat = 2 * (cpu.shiftOperand x y).toNat % 256 := by
      rw [UInt8.toNat_shiftLeft, UInt8.toNat_one, Nat.shiftLeft_eq, Nat.mul_comm]
    have hflag : 128 ≤ cpu.shiftOperand x y ↔ 128 ≤ (cpu.shiftOperand x y).toNat :=
      UInt8.le_iff_toNat_le
    rw [hoperand] at hvalue hflag
    exact cpu.toNat_get_setWithFlag x r hvalue (decide_eq_decide.mpr hflag)

end Processor

namespace Machine

/-- Every operation reads both registers before it writes any, and where the result and the flag go
to the same register, the flag remains. Nothing but registers changes. -/
theorem flag_follows_result (machine : Machine) (operation : Arithmetic) (x y : Register) :
    ∃ registers : Vector UInt8 16,
      machine.execute (Instruction.decode (operation.encode x y)) =
        .done { machine with cpu := { machine.cpu with registers } } ∧
      ∀ r : Register, (registers.get r).toNat = machine.cpu.valueAfter operation x y r := by
  refine ⟨(machine.cpu.compute operation x y).registers, ?_, ?_⟩
  · rw [Arithmetic.decode_encode, execute, onCpu, Processor.compute_registers]
  · intro r
    exact machine.cpu.toNat_get_compute operation x y r

end Machine

end ChipEight
