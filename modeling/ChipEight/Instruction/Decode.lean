import ChipEight.Instruction

/-!
Words as instructions. Every word decodes: one that matches no encoding is an instruction
that does nothing.
-/

namespace ChipEight.Instruction

/-- The four-bit digit of a word, counted from the least significant one. -/
def nibble (word : UInt16) (position : Nat) : Nibble :=
  Fin.ofNat 16 (word.toNat >>> (4 * position))

def lowByte (word : UInt16) : UInt8 :=
  UInt8.ofNat word.toNat

def shortAddress (word : UInt16) : ShortAddress :=
  Fin.ofNat 4096 word.toNat

/-- Words whose top digit is zero, apart from the native calls among them. -/
def decodeSystem (target : ShortAddress) : Instruction :=
  match target.val / 16, target.val % 16 with
  | 0x0C, rows => .scroll (.down (Fin.ofNat 16 rows))
  | 0x0D, rows => .scroll (.up (Fin.ofNat 16 rows))
  | 0x0E, 0x0 => .clearScreen
  | 0x0E, 0xE => .returnFromCall
  | 0x0F, 0xB => .scroll .right
  | 0x0F, 0xC => .scroll .left
  | 0x0F, 0xD => .exit
  | 0x0F, 0xE => .setResolution false
  | 0x0F, 0xF => .setResolution true
  | _, _ => .native target

def decodeArithmetic (x y : Register) (word : UInt16) : Instruction :=
  match (nibble word 0).val with
  | 0x0 => .arithmetic .copy x y
  | 0x1 => .arithmetic .or x y
  | 0x2 => .arithmetic .and x y
  | 0x3 => .arithmetic .xor x y
  | 0x4 => .arithmetic .add x y
  | 0x5 => .arithmetic .subtract x y
  | 0x6 => .arithmetic .shiftRight x y
  | 0x7 => .arithmetic .subtractFrom x y
  | 0xE => .arithmetic .shiftLeft x y
  | _ => .unknown word

/-- Words whose top digit is fifteen, apart from the long load. -/
def decodeDevice (x : Register) (word : UInt16) : Instruction :=
  match (lowByte word).toNat with
  | 0x01 => .selectPlanes x
  | 0x02 => .loadPattern
  | 0x07 => .readDelay x
  | 0x0A => .awaitKey x
  | 0x15 => .setDelay x
  | 0x18 => .setSound x
  | 0x1E => .addToIndex x
  | 0x29 => .pointToDigit x
  | 0x30 => .pointToBigDigit x
  | 0x33 => .storeDecimal x
  | 0x3A => .setPitch x
  | 0x55 => .storeThrough x
  | 0x65 => .loadThrough x
  | 0x75 => .saveFlags x
  | 0x85 => .restoreFlags x
  | _ => .unknown word

/-- The first word of the long load. -/
def longLoad : UInt16 := 0xF000

def decode (word : UInt16) : Instruction :=
  let x := nibble word 2
  let y := nibble word 1
  let n := nibble word 0
  let value := lowByte word
  let target := shortAddress word
  match (nibble word 3).val with
  | 0x0 => decodeSystem target
  | 0x1 => .jump target
  | 0x2 => .call target
  | 0x3 => .skip (.equalsByte x value)
  | 0x4 => .skip (.differsByte x value)
  | 0x5 =>
    match n.val with
    | 0x0 => .skip (.equals x y)
    | 0x2 => .storeRange x y
    | 0x3 => .loadRange x y
    | _ => .unknown word
  | 0x6 => .setByte x value
  | 0x7 => .addByte x value
  | 0x8 => decodeArithmetic x y word
  | 0x9 => if n = 0 then .skip (.differs x y) else .unknown word
  | 0xA => .setIndex target
  | 0xB => .jumpOffset x target
  | 0xC => .random x value
  | 0xD => .draw x y n
  | 0xE =>
    match value.toNat with
    | 0x9E => .skip (.keyDown x)
    | 0xA1 => .skip (.keyUp x)
    | _ => .unknown word
  | _ => if word = longLoad then .setIndexLong else decodeDevice x word

end ChipEight.Instruction
