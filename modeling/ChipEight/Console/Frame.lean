import ChipEight.Console

/-!
The schedule of a frame: the time that has passed becomes processor cycles and then ticks.
How many there are of each depends on the clock alone, not on what the program does, unless
an instruction fails.
-/

namespace ChipEight

/-- What a host needs to know after a frame. -/
structure FrameReport where
  /-- The screen may differ from that of the frame before. -/
  changed : Bool := false
  /-- The sound was on when the cycles were done. -/
  beeping : Bool := false
  deriving DecidableEq, Repr

structure FrameResult where
  console : Console
  report : Except Fault FrameReport

namespace Clock

/-- Ticks in a second. -/
def ticksPerSecond : Float := 60.0

/-- Nanoseconds in a frame, rounded up so that a frame always makes a whole tick. -/
def frame : Nat := 16666667

/-- Whole seconds and the rest are converted on their own. -/
def seconds (nanoseconds : Nat) : Float :=
  Float.ofNat (nanoseconds / 1000000000) + Float.ofNat (nanoseconds % 1000000000) / 1000000000.0

/-- A unit is due a little before it is complete, since nanoseconds are truncated. -/
def isDue (credit : Float) : Bool :=
  1.0 - 0.001 ≤ credit

/-- Units due with the given credit, after `counted` others and at most `bound` more. -/
def countDue : Nat → Float → Nat → Nat
  | 0, _, counted => counted
  | bound + 1, credit, counted =>
    if isDue credit then countDue bound (credit - 1.0) (counted + 1) else counted

/-- Units due; there are never more than the next whole number of the credit. -/
def due (credit : Float) : Nat :=
  countDue (credit.toUInt64.toNat + 1) credit 0

end Clock

namespace Console

def spendCycle (console : Console) : Console :=
  { console with cycleCredit := console.cycleCredit - 1.0 }

/-- Spends cycles, each on a step, up to the first fault. -/
def runCycles : Nat → Console → Outcome Console
  | 0, console => .done console
  | count + 1, console =>
    match console.spendCycle.step with
    | .done console => runCycles count console
    | .fault reason console => .fault reason console

def tick (console : Console) : Console :=
  { console with machine := console.machine.tick, tickCredit := console.tickCredit - 1.0 }

def runTicks : Nat → Console → Console
  | 0, console => console
  | count + 1, console => runTicks count console.tick

/-- Adds the cycles that fall into a time. -/
def earnCycles (console : Console) (seconds : Float) : Console :=
  { console with
    cycleCredit :=
      console.cycleCredit + console.configuration.cyclesPerSecond * seconds }

def earnTicks (console : Console) (seconds : Float) : Console :=
  { console with tickCredit := console.tickCredit + Clock.ticksPerSecond * seconds }

/-- The ticks of a frame and the poll after them. -/
def finishFrame (console : Console) (seconds : Float) : FrameResult :=
  let beeping := console.machine.sound.isOn
  let console := console.earnTicks seconds
  let console := runTicks (Clock.due console.tickCredit) console
  let (screen, changed) := console.machine.screen.poll
  { console := console.onMachine ({ · with screen }), report := .ok { changed, beeping } }

/-- Lets time pass. A fault ends the frame at once, without ticks and without a poll. -/
def runFrame (console : Console) (nanoseconds : Nat) : FrameResult :=
  let seconds := Clock.seconds nanoseconds
  let console := console.earnCycles seconds
  match runCycles (Clock.due console.cycleCredit) console with
  | .fault reason console => { console, report := .error reason }
  | .done console => console.finishFrame seconds

end Console

end ChipEight
