import ChipEight.Configuration
import ChipEight.Machine.Execute

/-!
A machine under a configuration and a clock. The clock holds credit: time that has passed but
was not yet spent on whole processor cycles or on whole ticks.
-/

namespace ChipEight

structure Console where
  machine : Machine
  configuration : Configuration
  /-- Processor cycles due. -/
  cycleCredit : Float := 0.0
  /-- Ticks of the 60 Hz clock due. -/
  tickCredit : Float := 0.0

namespace Console

def onMachine (console : Console) (change : Machine → Machine) : Console :=
  { console with machine := change console.machine }

/-- The processor keeps a copy of the dialect. -/
def setDialect (console : Console) (dialect : Dialect) : Console :=
  { console with
    configuration := { console.configuration with dialect }
    machine := console.machine.onCpu ({ · with dialect }) }

def setTickrate (console : Console) (tickrate : UInt32) : Console :=
  { console with configuration := { console.configuration with tickrate } }

def configure (console : Console) (configuration : Configuration) : Console :=
  { console with
    configuration
    machine :=
      (console.machine.onCpu ({ · with dialect := configuration.dialect })).onSound
        (·.setVoice configuration.voice) }

/-- A machine without a program. -/
def ofSeed (seed : UInt64) : Console :=
  let standard := Configuration.standard
  configure { machine := .ofSeed standard.dialect seed, configuration := standard } standard

/-- Everything but the random source starts over with a new program; the configuration is the
standard one until another is set. A program that does not fit changes nothing. -/
def load (console : Console) (image : List UInt8) : Except LoadError Console :=
  match Memory.blank.load image with
  | .error reason => .error reason
  | .ok memory =>
    let machine := { cpu := console.machine.cpu.reset, memory }
    .ok (configure { machine, configuration := console.configuration } .standard)

def press (console : Console) (key : Key) : Console :=
  console.onMachine (·.onKeypad (·.press key))

def release (console : Console) (key : Key) : Console :=
  console.onMachine (·.onKeypad (·.release key))

def latchKeys (console : Console) : Console :=
  console.onMachine (·.onKeypad (·.latch))

/-- A draw waits for the vertical blank, and so does the processor. -/
def isStalled (console : Console) : Bool :=
  console.configuration.dialect.waitForBlank && console.machine.screen.awaitingBlank

/-- Executes one instruction unless the processor is stalled. -/
def step (console : Console) : Outcome Console :=
  if console.isStalled then .done console
  else
    let { machine, configuration, cycleCredit, tickCredit } := console
    machine.step.map ({ machine := ·, configuration, cycleCredit, tickCredit })

/-- Samples of the sound, whose phase moves on. -/
def output (console : Console) (count : Nat) (sampleRate : Float) : List Sample × Console :=
  let (samples, sound) := console.machine.sound.output count sampleRate
  (samples, console.onMachine ({ · with sound }))

end Console

end ChipEight
