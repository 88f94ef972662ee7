/-!
The switches in which interpreters of the machine differ. A dialect is always a complete set
of switches; changing it takes effect with the next instruction.
-/

namespace ChipEight

structure Dialect where
  /-- Shifts take the first register instead of the second as their operand. -/
  shiftInPlace : Bool := false
  /-- Storing and loading registers moves the index by one less than their count. -/
  shortAdvance : Bool := false
  /-- Storing and loading registers leaves the index; it wins over `shortAdvance`. -/
  keepIndex : Bool := false
  /-- Sprites continue at the opposite edge instead of being cut off. -/
  wrapSprites : Bool := false
  /-- The offset of a jump comes from the register that the top digit names. -/
  jumpByTopDigit : Bool := false
  /-- A draw stalls the processor until the next vertical blank. -/
  waitForBlank : Bool := false
  /-- The bitwise operations clear the flag register. -/
  logicClearsFlag : Bool := false
  /-- Scroll distances double in low resolution. -/
  scaleScrolls : Bool := false
  deriving DecidableEq, Repr

namespace Dialect

/-- The first interpreter, on the COSMAC VIP. -/
def cosmac : Dialect :=
  { waitForBlank := true, logicClearsFlag := true }

/-- The base machine as it is usually implemented nowadays. -/
def modern : Dialect :=
  { }

/-- The high-resolution extension on the HP-48. -/
def superChip : Dialect :=
  { shiftInPlace := true, keepIndex := true, jumpByTopDigit := true, waitForBlank := true }

def modernSuperChip : Dialect :=
  { shiftInPlace := true, keepIndex := true, jumpByTopDigit := true, scaleScrolls := true }

/-- The four-plane extension. -/
def xoChip : Dialect :=
  { wrapSprites := true, scaleScrolls := true }

/-- The index after the registers up to number `x` were stored or loaded. -/
def advanceIndex (dialect : Dialect) (index : UInt16) (x : UInt8) : UInt16 :=
  if dialect.keepIndex then index
  else if dialect.shortAdvance then index + x.toUInt16
  else index + (x.toUInt16 + 1)

end Dialect

end ChipEight
