import ChipEight.Instruction

/-!
The customary name of an encoding, four characters in which `X`, `Y`, `N`, `NN` and `NNN`
stand for operands, beside the values of these operands.
-/

namespace ChipEight

/-- An encoding with its operands by name, in the order in which a definition lists them. -/
structure Pattern where
  name : String
  operands : List (String × Nat) := []
  deriving DecidableEq, Repr

private def Pattern.ofTarget (name : String) (target : ShortAddress) : Pattern :=
  ⟨name, [("nnn", target.val)]⟩

private def Pattern.ofRegister (name : String) (x : Register) : Pattern :=
  ⟨name, [("x", x.val)]⟩

private def Pattern.ofRegisters (name : String) (x y : Register) : Pattern :=
  ⟨name, [("x", x.val), ("y", y.val)]⟩

private def Pattern.ofByte (name : String) (x : Register) (value : UInt8) : Pattern :=
  ⟨name, [("x", x.val), ("nn", value.toNat)]⟩

def Condition.pattern : Condition → Pattern
  | .equalsByte x value => .ofByte "3XNN" x value
  | .differsByte x value => .ofByte "4XNN" x value
  | .equals x y => .ofRegisters "5XY0" x y
  | .differs x y => .ofRegisters "9XY0" x y
  | .keyDown x => .ofRegister "EX9E" x
  | .keyUp x => .ofRegister "EXA1" x

def Arithmetic.patternName : Arithmetic → String
  | .copy => "8XY0"
  | .or => "8XY1"
  | .and => "8XY2"
  | .xor => "8XY3"
  | .add => "8XY4"
  | .subtract => "8XY5"
  | .shiftRight => "8XY6"
  | .subtractFrom => "8XY7"
  | .shiftLeft => "8XYE"

def Scroll.pattern : Scroll → Pattern
  | .down rows => ⟨"00CN", [("n", rows.val)]⟩
  | .up rows => ⟨"00DN", [("n", rows.val)]⟩
  | .right => ⟨"00FB", []⟩
  | .left => ⟨"00FC", []⟩

/-- `none` for a word that matches no encoding. -/
def Instruction.pattern? : Instruction → Option Pattern
  | .native target => some (.ofTarget "0NNN" target)
  | .scroll move => some move.pattern
  | .clearScreen => some ⟨"00E0", []⟩
  | .returnFromCall => some ⟨"00EE", []⟩
  | .exit => some ⟨"00FD", []⟩
  | .setResolution high => some ⟨if high then "00FF" else "00FE", []⟩
  | .jump target => some (.ofTarget "1NNN" target)
  | .call target => some (.ofTarget "2NNN" target)
  | .skip condition => some condition.pattern
  | .storeRange x y => some (.ofRegisters "5XY2" x y)
  | .loadRange x y => some (.ofRegisters "5XY3" x y)
  | .setByte x value => some (.ofByte "6XNN" x value)
  | .addByte x value => some (.ofByte "7XNN" x value)
  | .arithmetic operation x y => some (.ofRegisters operation.patternName x y)
  | .setIndex target => some (.ofTarget "ANNN" target)
  | .jumpOffset x base => some ⟨"BNNN", [("x", x.val), ("nnn", base.val)]⟩
  | .random x mask => some (.ofByte "CXNN" x mask)
  | .draw x y rows => some ⟨"DXYN", [("x", x.val), ("y", y.val), ("n", rows.val)]⟩
  | .setIndexLong => some ⟨"F000", []⟩
  | .selectPlanes mask => some (.ofRegister "FX01" mask)
  | .loadPattern => some ⟨"F002", []⟩
  | .readDelay x => some (.ofRegister "FX07" x)
  | .awaitKey x => some (.ofRegister "FX0A" x)
  | .setDelay x => some (.ofRegister "FX15" x)
  | .setSound x => some (.ofRegister "FX18" x)
  | .addToIndex x => some (.ofRegister "FX1E" x)
  | .pointToDigit x => some (.ofRegister "FX29" x)
  | .pointToBigDigit x => some (.ofRegister "FX30" x)
  | .storeDecimal x => some (.ofRegister "FX33" x)
  | .setPitch x => some (.ofRegister "FX3A" x)
  | .storeThrough x => some (.ofRegister "FX55" x)
  | .loadThrough x => some (.ofRegister "FX65" x)
  | .saveFlags x => some (.ofRegister "FX75" x)
  | .restoreFlags x => some (.ofRegister "FX85" x)
  | .unknown _ => none

end ChipEight
