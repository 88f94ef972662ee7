import ChipEight.Keypad
import ChipEight.Processor
import ChipEight.Screen
import ChipEight.Sound

/-!
The processor together with the devices that its instructions reach.
-/

namespace ChipEight

structure Machine where
  cpu : Processor
  memory : Memory := Memory.blank
  screen : Screen := { }
  keypad : Keypad := { }
  sound : Sound := { }

namespace Machine

def ofSeed (dialect : Dialect) (seed : UInt64) : Machine :=
  { cpu := { dialect, random := RandomSource.ofSeed seed } }

def onCpu (machine : Machine) (change : Processor → Processor) : Machine :=
  { machine with cpu := change machine.cpu }

def onScreen (machine : Machine) (change : Screen → Screen) : Machine :=
  { machine with screen := change machine.screen }

def onSound (machine : Machine) (change : Sound → Sound) : Machine :=
  { machine with sound := change machine.sound }

def onKeypad (machine : Machine) (change : Keypad → Keypad) : Machine :=
  { machine with keypad := change machine.keypad }

/-- Writes bytes from the index on, in the order of addresses. -/
def storeAtIndex (machine : Machine) (values : List UInt8) : Machine :=
  { machine with memory := machine.memory.writeAll machine.cpu.index values }

/-- One tick of the 60 Hz clock. -/
def tick (machine : Machine) : Machine :=
  { machine with
    cpu := machine.cpu.tickDelay
    sound := machine.sound.tick
    screen := machine.screen.endBlank
    keypad := machine.keypad.latch }

/-- What a tick does to a machine. Both timers go down by one unless they stand at zero, and the
wave starts over when that of the sound runs out. No draw waits any longer, and the keypad takes
the keys as they are for the earlier ones. -/
structure Ticks (before after : Machine) : Prop where
  delay : after.cpu.delay.remaining.toNat = before.cpu.delay.remaining.toNat - 1
  processor : after.cpu = { before.cpu with delay := after.cpu.delay }
  sound : after.sound.timer.remaining.toNat = before.sound.timer.remaining.toNat - 1
  phase : after.sound.phase =
    if before.sound.timer.remaining = 1 then 0.0 else before.sound.phase
  wave : after.sound =
    { before.sound with timer := after.sound.timer, phase := after.sound.phase }
  screen : after.screen = { before.screen with awaitingBlank := false }
  keypad : after.keypad = { before.keypad with before := before.keypad.down }
  memory : after.memory = before.memory

theorem ticks_tick (machine : Machine) : machine.Ticks machine.tick := by
  have hsound : machine.tick.sound =
      { machine.sound with
        timer := machine.sound.timer.tick
        phase := if machine.sound.timer.remaining = 1 then 0.0 else machine.sound.phase } :=
    machine.sound.tick_eq
  constructor
  · exact machine.cpu.delay.toNat_tick
  · rfl
  · rw [hsound]
    exact machine.sound.timer.toNat_tick
  · rw [hsound]
  · rw [hsound]
  · rfl
  · rfl
  · rfl

end Machine

end ChipEight
