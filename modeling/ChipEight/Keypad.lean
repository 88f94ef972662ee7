import ChipEight.Nibble

/-!
Sixteen keys. Beside the present state of every key the keypad holds an earlier one, from
which the release of a key is seen: `latch` makes it the present state on every tick, and an
event of a key records the state of this key just before.
-/

namespace ChipEight

abbrev Key := Fin 16

/-- A byte names a key if it is below sixteen. -/
def Key.ofByte? (value : UInt8) : Option Key :=
  if h : value.toNat < 16 then some ⟨value.toNat, h⟩ else none

structure Keypad where
  down : Vector Bool 16 := Vector.replicate 16 false
  before : Vector Bool 16 := Vector.replicate 16 false
  deriving DecidableEq, Repr

namespace Keypad

def set (keypad : Keypad) (key : Key) (isDown : Bool) : Keypad :=
  { before := keypad.before.set key keypad.down[key]
    down := keypad.down.set key isDown }

def press (keypad : Keypad) (key : Key) : Keypad :=
  keypad.set key true

def release (keypad : Keypad) (key : Key) : Keypad :=
  keypad.set key false

def latch (keypad : Keypad) : Keypad :=
  { keypad with before := keypad.down }

def isDown (keypad : Keypad) (key : Key) : Bool :=
  keypad.down[key]

/-- A byte that names no key is never down. -/
def isByteDown (keypad : Keypad) (value : UInt8) : Bool :=
  match Key.ofByte? value with
  | some key => keypad.isDown key
  | none => false

/-- The key was down before and is up now. -/
def isReleased (keypad : Keypad) (key : Key) : Bool :=
  keypad.before[key] && !keypad.down[key]

/-- The lowest released key. -/
def released? (keypad : Keypad) : Option Key :=
  (List.finRange 16).find? keypad.isReleased

end Keypad

end ChipEight
