import ChipEight.Hex
import ChipEight.Instruction

/-!
Assembly text of one instruction. Registers and four-bit operands take one digit, bytes two,
short addresses three and words four, so the operands can be read back from their places.
-/

namespace ChipEight

/-- A register as it is written, `V0` to `VF`. -/
def Register.text (x : Register) : String :=
  "V" ++ Hex.fixed 1 x.val

def byteText (value : UInt8) : String :=
  Hex.fixed 2 value.toNat

def ShortAddress.text (target : ShortAddress) : String :=
  Hex.fixed 3 target.val

def Condition.mnemonic : Condition → String
  | .equalsByte x value => "SE  " ++ x.text ++ ", " ++ byteText value
  | .differsByte x value => "SNE " ++ x.text ++ ", " ++ byteText value
  | .equals x y => "SE  " ++ x.text ++ ", " ++ y.text
  | .differs x y => "SNE " ++ x.text ++ ", " ++ y.text
  | .keyDown x => "SKP " ++ x.text
  | .keyUp x => "SKNP " ++ x.text

def Arithmetic.word : Arithmetic → String
  | .copy => "LD  "
  | .or => "OR  "
  | .and => "AND "
  | .xor => "XOR "
  | .add => "ADD "
  | .subtract => "SUB "
  | .shiftRight => "SHR "
  | .subtractFrom => "SUBN "
  | .shiftLeft => "SHL "

def Scroll.mnemonic : Scroll → String
  | .down rows => "SCD " ++ Hex.fixed 1 rows.val
  | .up rows => "SCU " ++ Hex.fixed 1 rows.val
  | .right => "SCR"
  | .left => "SCL"

/-- The long load is written without its second word, which the instruction does not hold. -/
def Instruction.mnemonic : Instruction → String
  | .native target => "SYS " ++ target.text
  | .scroll move => move.mnemonic
  | .clearScreen => "CLS"
  | .returnFromCall => "RET"
  | .exit => "EXIT"
  | .setResolution high => if high then "HIGH" else "LOW"
  | .jump target => "JP  " ++ target.text
  | .call target => "CALL " ++ target.text
  | .skip condition => condition.mnemonic
  | .storeRange x y => "LD  [I], " ++ x.text ++ "-" ++ y.text
  | .loadRange x y => "LD  " ++ x.text ++ "-" ++ y.text ++ ", [I]"
  | .setByte x value => "LD  " ++ x.text ++ ", " ++ byteText value
  | .addByte x value => "ADD " ++ x.text ++ ", " ++ byteText value
  | .arithmetic operation x y => operation.word ++ x.text ++ ", " ++ y.text
  | .setIndex target => "LD  I, " ++ target.text
  | .jumpOffset _ base => "JP  V0, " ++ base.text
  | .random x mask => "RND " ++ x.text ++ ", " ++ byteText mask
  | .draw x y rows => "DRW " ++ x.text ++ ", " ++ y.text ++ ", " ++ Hex.fixed 1 rows.val
  | .setIndexLong => "LD  I, LONG"
  | .selectPlanes mask => "PLANE " ++ Hex.fixed 1 mask.val
  | .loadPattern => "AUDIO [I]"
  | .readDelay x => "LD  " ++ x.text ++ ", DT"
  | .awaitKey x => "LD  " ++ x.text ++ ", K"
  | .setDelay x => "LD  DT, " ++ x.text
  | .setSound x => "LD  ST, " ++ x.text
  | .addToIndex x => "ADD I, " ++ x.text
  | .pointToDigit x => "LD  F, " ++ x.text
  | .pointToBigDigit x => "LD  HF, " ++ x.text
  | .storeDecimal x => "BCD " ++ x.text
  | .setPitch x => "PITCH " ++ x.text
  | .storeThrough x => "LD  [I], V0-" ++ x.text
  | .loadThrough x => "LD  V0-" ++ x.text ++ ", [I]"
  | .saveFlags x => "LD  R, V0-" ++ x.text
  | .restoreFlags x => "LD  V0-" ++ x.text ++ ", R"
  | .unknown word => ".DW " ++ Hex.fixed 4 word.toNat

end ChipEight
