import ChipEight.Configuration.Resolution
import ChipEight.Console.Frame
import ChipEight.Console.Setup
import ChipEight.Console.Listing
import ChipEight.Log

/-!
The notes that the operations of a console leave. A run with notes goes through the same
states as one without, which is what the lemmas here say.
-/

namespace ChipEight

def Resolution.notes (resolution : Resolution) : List Note :=
  resolution.visits.filterMap fun
    | .skipped name => some (.platformSkipped name)
    | .unknown _ => none
    | .used name => some (.platformUsed name)

/-- Of a setup that is built, up to the point where it fails. -/
def Setup.notes (setup : Setup) : List Note :=
  match setup.image with
  | none => []
  | some image =>
    let standard := Note.configured .standard
    if image.length ≤ Memory.maxImageLength then
      [standard, .programLoaded image.length, standard] ++
        (setup.configuration.map Note.configured).toList ++
        (setup.dialect.map Note.dialectChanged).toList ++
        (setup.tickrate.map Note.tickrateChanged).toList
    else [standard]

namespace Console

/-- Of the instruction that comes next, if it is executed. -/
def stepNotes (console : Console) : List Note :=
  if console.isStalled then []
  else
    let cpu := console.machine.cpu
    match Instruction.decode (console.machine.memory.readWord cpu.counter) with
    | .native target => [.nativeCallIgnored target]
    | .unknown word => [.wordIgnored word]
    | .loadPattern => [.patternLoaded cpu.index]
    | _ => []

def tickNotes (console : Console) : List Note :=
  match console.machine.sound.timer.tickReport with
  | .finished => [.soundEnded]
  | _ => []

def faultNote (reason : Fault) (console : Console) : Note :=
  .faulted reason console.machine.cpu.counter

/-- As `runCycles`, with the notes in a log. -/
def runCyclesNoted : Nat → Console → Log → Outcome Console × Log
  | 0, console, log => (.done console, log)
  | count + 1, console, log =>
    let log := log.record console.stepNotes
    match console.spendCycle.step with
    | .done console => runCyclesNoted count console log
    | .fault reason console => (.fault reason console, log.record [faultNote reason console])

def runTicksNoted : Nat → Console → Log → Console × Log
  | 0, console, log => (console, log)
  | count + 1, console, log => runTicksNoted count console.tick (log.record console.tickNotes)

def finishFrameNoted (console : Console) (seconds : Float) (log : Log) : FrameResult × Log :=
  let beeping := console.machine.sound.isOn
  let console := console.earnTicks seconds
  let (console, log) := runTicksNoted (Clock.due console.tickCredit) console log
  let (screen, changed) := console.machine.screen.poll
  ({ console := console.onMachine ({ · with screen }), report := .ok { changed, beeping } }, log)

def runFrameNoted (console : Console) (nanoseconds : Nat) (log : Log) : FrameResult × Log :=
  let seconds := Clock.seconds nanoseconds
  let console := console.earnCycles seconds
  match runCyclesNoted (Clock.due console.cycleCredit) console log with
  | (.fault reason console, log) => ({ console, report := .error reason }, log)
  | (.done console, log) => console.finishFrameNoted seconds log

/-- Logs the notes of running the instructions that `foretell` lists. -/
def foretellNoted : Nat → Console → Log → Log
  | 0, _, log => log
  | count + 1, console, log =>
    let log := log.record console.stepNotes
    match console.step with
    | .done console => foretellNoted count console log
    | .fault reason console => log.record [faultNote reason console]

theorem runCyclesNoted_fst (count : Nat) (console : Console) (log : Log) :
    (runCyclesNoted count console log).1 = runCycles count console := by
  induction count generalizing console log with
  | zero => rfl
  | succ count ih =>
    simp only [runCyclesNoted, runCycles]
    cases console.spendCycle.step with
    | done next => exact ih next _
    | fault reason next => rfl

theorem runTicksNoted_fst (count : Nat) (console : Console) (log : Log) :
    (runTicksNoted count console log).1 = runTicks count console := by
  induction count generalizing console log with
  | zero => rfl
  | succ count ih => exact ih console.tick _

theorem finishFrameNoted_fst (console : Console) (seconds : Float) (log : Log) :
    (console.finishFrameNoted seconds log).1 = console.finishFrame seconds := by
  simp only [finishFrameNoted, finishFrame, ← runTicksNoted_fst _ _ log]

/-- Taking notes changes nothing else. -/
theorem runFrameNoted_fst (console : Console) (nanoseconds : Nat) (log : Log) :
    (console.runFrameNoted nanoseconds log).1 = console.runFrame nanoseconds := by
  simp only [runFrameNoted, runFrame, ← runCyclesNoted_fst _ _ log]
  generalize runCyclesNoted _ _ log = result
  obtain ⟨outcome, notes⟩ := result
  cases outcome with
  | done next => exact finishFrameNoted_fst next _ notes
  | fault reason next => rfl

end Console

end ChipEight
