import ChipEight.Console
import ChipEight.Instruction.Text

/-!
Listings: the program image in the order of addresses, and what would be executed next.
-/

namespace ChipEight

/-- An instruction at its address, written with all of its words. -/
structure Entry where
  address : Address
  instruction : Instruction
  mnemonic : String
  deriving DecidableEq, Repr

namespace Entry

/-- Bytes that the instruction takes. -/
def size (entry : Entry) : Nat :=
  if entry.instruction = .setIndexLong then 4 else 2

def text (entry : Entry) : String :=
  Hex.fixed 4 entry.address.toNat ++ ": " ++ entry.mnemonic

/-- The instruction that begins at an address. -/
def ofMemory (memory : Memory) (address : Address) : Entry :=
  let instruction := Instruction.decode (memory.readWord address)
  let mnemonic := match instruction with
    | .setIndexLong => "LD  I, " ++ Hex.fixed 4 (memory.readWord (address + 2)).toNat
    | _ => instruction.mnemonic
  { address, instruction, mnemonic }

/-- At most `bound` entries from an address on, one after another, that begin before `stop`. -/
def listFrom (memory : Memory) (stop : Nat) : Nat → Nat → List Entry
  | 0, _ => []
  | bound + 1, address =>
    if address < stop then
      let entry := ofMemory memory (UInt16.ofNat address)
      entry :: listFrom memory stop bound (address + entry.size)
    else []

end Entry

namespace Memory

/-- The loaded image as a list of instructions; it has no more of them than bytes. -/
def listing (memory : Memory) : List Entry :=
  Entry.listFrom memory (programStart.toNat + memory.imageLength) memory.imageLength
    programStart.toNat

end Memory

namespace Console

def nextEntry (console : Console) : Entry :=
  Entry.ofMemory console.machine.memory console.machine.cpu.counter

/-- A copy that does not wait for vertical blanks. -/
def unstalled (console : Console) : Console :=
  let dialect := { console.configuration.dialect with waitForBlank := false }
  { console with configuration := { console.configuration with dialect } }

/-- The next instructions in the order of execution, up to the first that fails. -/
def foretell : Nat → Console → List Entry
  | 0, _ => []
  | count + 1, console =>
    let entry := console.nextEntry
    match console.step with
    | .done console => entry :: foretell count console
    | .fault _ _ => [entry]

/-- Runs a copy; this console stays as it is. That there may be no room in storage for a list of
`count` entries is left out. -/
def peek (console : Console) (count : Nat) : List Entry :=
  foretell count console.unstalled

end Console

end ChipEight
