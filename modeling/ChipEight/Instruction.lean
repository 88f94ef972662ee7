import ChipEight.Nibble

/-!
The instruction set as values: the base machine, its high-resolution extension and the
four-plane extension. Registers are numbered below sixteen and short addresses are twelve
bits wide, so no instruction can name a register or an address that does not exist.
-/

namespace ChipEight

/-- Number of one of the sixteen byte registers; the last one also holds flags. -/
abbrev Register := Fin 16

/-- A twelve-bit address, as far as a one-word instruction can reach. -/
abbrev ShortAddress := Fin 4096

abbrev Address := UInt16

def ShortAddress.toAddress (target : ShortAddress) : Address :=
  UInt16.ofNat target.val

/-- What decides whether the next instruction is skipped. -/
inductive Condition where
  | equalsByte (x : Register) (value : UInt8)
  | differsByte (x : Register) (value : UInt8)
  | equals (x y : Register)
  | differs (x y : Register)
  | keyDown (x : Register)
  | keyUp (x : Register)
  deriving DecidableEq, Repr

/-- Two-register operations: the result goes to the first register. -/
inductive Arithmetic where
  | copy
  | or
  | and
  | xor
  | add
  | subtract
  | shiftRight
  | subtractFrom
  | shiftLeft
  deriving DecidableEq, Repr

/-- Movements of the selected planes, sideways by a fixed distance. -/
inductive Scroll where
  | down (rows : Nibble)
  | up (rows : Nibble)
  | right
  | left
  deriving DecidableEq, Repr

inductive Instruction where
  /-- A call into native code of the host processor, which this machine does not have. -/
  | native (target : ShortAddress)
  | scroll (move : Scroll)
  | clearScreen
  | returnFromCall
  /-- Restarts the program. -/
  | exit
  | setResolution (high : Bool)
  | jump (target : ShortAddress)
  | call (target : ShortAddress)
  | skip (condition : Condition)
  /-- Stores the registers from the first to the second, in either direction. -/
  | storeRange (x y : Register)
  | loadRange (x y : Register)
  | setByte (x : Register) (value : UInt8)
  | addByte (x : Register) (value : UInt8)
  | arithmetic (operation : Arithmetic) (x y : Register)
  | setIndex (target : ShortAddress)
  /-- Jumps past `base` by the value of a register; `x` is the top digit of `base`. -/
  | jumpOffset (x : Register) (base : ShortAddress)
  | random (x : Register) (mask : UInt8)
  /-- Draws `rows` rows of eight pixels, or a sprite of sixteen by sixteen for zero. -/
  | draw (x y : Register) (rows : Nibble)
  /-- The only instruction of two words: the second is the new index. -/
  | setIndexLong
  | selectPlanes (mask : Nibble)
  | loadPattern
  | readDelay (x : Register)
  /-- Repeats itself until a key is let go. -/
  | awaitKey (x : Register)
  | setDelay (x : Register)
  | setSound (x : Register)
  | addToIndex (x : Register)
  | pointToDigit (x : Register)
  | pointToBigDigit (x : Register)
  | storeDecimal (x : Register)
  | setPitch (x : Register)
  /-- Stores the registers up to and including `x`. -/
  | storeThrough (x : Register)
  | loadThrough (x : Register)
  | saveFlags (x : Register)
  | restoreFlags (x : Register)
  /-- Any other word; it does nothing. -/
  | unknown (word : UInt16)
  deriving DecidableEq, Repr

end ChipEight
