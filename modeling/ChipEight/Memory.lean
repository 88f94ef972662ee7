import ChipEight.Font
import ChipEight.Instruction

/-!
The 64 KiB address space: the fonts near its start and the program image from `0x200` on.
Addresses are sixteen bits wide, so every read and every write is in range, and consecutive
addresses continue at zero after the last one.
-/

namespace ChipEight

structure Memory where
  bytes : Vector UInt8 65536
  /-- Length of the program image loaded last. -/
  imageLength : Nat := 0
  deriving DecidableEq

/-- Why a program image cannot be loaded. -/
inductive LoadError where
  | tooLarge (size : Nat)
  deriving DecidableEq, Repr

namespace Memory

def programStart : Address := 0x200

def fontStart : Address := 0x050

def bigFontStart : Address := 0x0A0

/-- Length of the largest image that ends within the address space. -/
def maxImageLength : Nat := 65536 - programStart.toNat

def read (memory : Memory) (address : Address) : UInt8 :=
  memory.bytes.get ⟨address.toNat, address.toNat_lt⟩

def write (memory : Memory) (address : Address) (value : UInt8) : Memory :=
  { memory with bytes := memory.bytes.set address.toNat value address.toNat_lt }

/-- Writes bytes to consecutive addresses, going on at address zero after the last. -/
def writeAll (memory : Memory) (address : Address) : List UInt8 → Memory
  | [] => memory
  | value :: rest => (memory.write address value).writeAll (address + 1) rest

/-- A big-endian word; its second byte is at the following address, zero after the last. -/
def readWord (memory : Memory) (address : Address) : UInt16 :=
  (memory.read address).toUInt16 <<< 8 ||| (memory.read (address + 1)).toUInt16

/-- `count` bytes from consecutive addresses, going on at address zero after the last. -/
def readAll (memory : Memory) (address : Address) : Nat → List UInt8
  | 0 => []
  | count + 1 => memory.read address :: memory.readAll (address + 1) count

/-- At most `count` bytes from `address` on, fewer where the address space ends. -/
def slice (memory : Memory) (address : Address) (count : Nat) : List UInt8 :=
  memory.readAll address (min count (65536 - address.toNat))

/-- No program, and both fonts in place. -/
def blank : Memory :=
  let zero : Memory := { bytes := Vector.replicate 65536 0 }
  (zero.writeAll fontStart Font.small).writeAll bigFontStart Font.big

/-- Copies an image to the program start. The bytes after it stay as they are. -/
def load (memory : Memory) (image : List UInt8) : Except LoadError Memory :=
  if image.length ≤ maxImageLength then
    .ok { memory.writeAll programStart image with imageLength := image.length }
  else
    .error (.tooLarge image.length)

end Memory

def LoadError.message : LoadError → String
  | .tooLarge size =>
    "program of " ++ toString size ++ " bytes does not fit into " ++
      toString Memory.maxImageLength ++ " bytes of program memory"

end ChipEight
