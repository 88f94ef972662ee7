import ChipEight.Console.Frame
import ChipEight.Proofs.Machine.Effect

/-!
Everything that a host can call on a console, as values, so that a history of a console is a
list of calls. The lemmas say what a call does to the parts of the console around the
machine, and to the screen.
-/

namespace ChipEight.Console

inductive Call where
  | step
  | frame (nanoseconds : Nat)
  | load (image : List UInt8)
  | configure (configuration : Configuration)
  | setDialect (dialect : Dialect)
  | setTickrate (tickrate : UInt32)
  | press (key : Key)
  | release (key : Key)
  | latchKeys
  | output (count : Nat) (sampleRate : Float)

/-- The console after a call, whether it succeeds or fails. -/
def perform (console : Console) : Call → Console
  | .step => console.step.state
  | .frame nanoseconds => (console.runFrame nanoseconds).console
  | .load image =>
    match console.load image with
    | .ok loaded => loaded
    | .error _ => console
  | .configure configuration => console.configure configuration
  | .setDialect dialect => console.setDialect dialect
  | .setTickrate tickrate => console.setTickrate tickrate
  | .press key => console.press key
  | .release key => console.release key
  | .latchKeys => console.latchKeys
  | .output count sampleRate => (console.output count sampleRate).2

def performAll (console : Console) (calls : List Call) : Console :=
  calls.foldl perform console

/-- A console of seed zero with an image in a memory that holds nothing else. -/
def ofImage (image : List UInt8) : Console :=
  let memory : Memory := { bytes := Vector.replicate 65536 0 }
  (ofSeed 0).onMachine ({ · with memory := memory.writeAll Memory.programStart image })

/-- The call puts a new program in, since its image fits. -/
def Call.loads : Call → Bool
  | .load image => image.length ≤ Memory.maxImageLength
  | _ => false

/-- A load changes nothing, or it starts a new machine, of which only the dialect and the random
source are not new. -/
theorem perform_load_cases (console : Console) (image : List UInt8) :
    ((Call.load image).loads = false ∧ console.perform (.load image) = console) ∨
      ((Call.load image).loads = true ∧ ∃ memory, console.perform (.load image) = configure
        { machine := { cpu := console.machine.cpu.reset, memory }
          configuration := console.configuration } .standard) := by
  by_cases hfits : image.length ≤ Memory.maxImageLength
  · refine .inr ⟨decide_eq_true hfits, ?_⟩
    simp only [perform, load, Memory.load, if_pos hfits]
    exact ⟨_, rfl⟩
  · refine .inl ⟨decide_eq_false hfits, ?_⟩
    simp only [perform, load, Memory.load, if_neg hfits]

theorem performAll_cons (console : Console) (call : Call) (calls : List Call) :
    console.performAll (call :: calls) = (console.perform call).performAll calls := rfl

def screen (console : Console) : Screen :=
  console.machine.screen

theorem step_eq (console : Console) :
    console.step =
      if console.isStalled then .done console
      else console.machine.step.map fun machine => { console with machine } := rfl

/-- What the instructions of a program cannot reach. -/
def setting (console : Console) : Configuration × Float :=
  (console.configuration, console.tickCredit)

theorem setting_step (console : Console) : console.step.state.setting = console.setting := by
  rw [step_eq]
  split
  · rfl
  · rw [Outcome.state_map]
    rfl

theorem reports_step (console : Console) :
    Screen.Reports console.screen console.step.state.screen := by
  rw [step_eq]
  split
  · exact .refl _
  · rw [Outcome.state_map]
    exact console.machine.reports_step

theorem setting_runCycles (count : Nat) (console : Console) :
    (runCycles count console).state.setting = console.setting := by
  induction count generalizing console with
  | zero => rfl
  | succ count ih =>
    have hstep := console.spendCycle.setting_step
    rw [runCycles]
    cases hresult : console.spendCycle.step with
    | done next =>
      rw [hresult] at hstep
      exact (ih next).trans hstep
    | fault reason next => rwa [hresult] at hstep

theorem reports_runCycles (count : Nat) (console : Console) :
    Screen.Reports console.screen (runCycles count console).state.screen := by
  induction count generalizing console with
  | zero => exact .refl _
  | succ count ih =>
    have hstep := console.spendCycle.reports_step
    rw [runCycles]
    cases hresult : console.spendCycle.step with
    | done next =>
      rw [hresult] at hstep
      exact Screen.Reports.trans hstep (ih next)
    | fault reason next => rwa [hresult] at hstep

theorem configuration_runTicks (count : Nat) (console : Console) :
    (runTicks count console).configuration = console.configuration := by
  induction count generalizing console with
  | zero => rfl
  | succ count ih => exact ih console.tick

theorem reports_runTicks (count : Nat) (console : Console) :
    Screen.Reports console.screen (runTicks count console).screen := by
  induction count generalizing console with
  | zero => exact .refl _
  | succ count ih => exact Screen.Reports.trans (Screen.reports_endBlank _) (ih console.tick)

/-- Cycles that fall due in a frame. -/
def cyclesDue (console : Console) (nanoseconds : Nat) : Nat :=
  Clock.due (console.earnCycles (Clock.seconds nanoseconds)).cycleCredit

/-- Ticks that fall due in a frame. -/
def ticksDue (console : Console) (nanoseconds : Nat) : Nat :=
  Clock.due (console.earnTicks (Clock.seconds nanoseconds)).tickCredit

/-- The cycles of a frame, without what follows them. -/
def frameCycles (console : Console) (nanoseconds : Nat) : Outcome Console :=
  runCycles (console.cyclesDue nanoseconds) (console.earnCycles (Clock.seconds nanoseconds))

theorem runFrame_eq (console : Console) (nanoseconds : Nat) :
    console.runFrame nanoseconds =
      match console.frameCycles nanoseconds with
      | .done next => next.finishFrame (Clock.seconds nanoseconds)
      | .fault reason next => { console := next, report := .error reason } := by
  rw [runFrame, frameCycles, cyclesDue]
  cases runCycles _ _ <;> rfl

theorem setting_frameCycles (console : Console) (nanoseconds : Nat) :
    (console.frameCycles nanoseconds).state.setting = console.setting :=
  setting_runCycles _ _

theorem ticksDue_congr {first second : Console} (h : first.setting = second.setting)
    (nanoseconds : Nat) : first.ticksDue nanoseconds = second.ticksDue nanoseconds := by
  have hcredit : first.tickCredit = second.tickCredit := congrArg Prod.snd h
  rw [ticksDue, ticksDue, earnTicks, earnTicks, hcredit]

theorem configuration_runFrame (console : Console) (nanoseconds : Nat) :
    (console.runFrame nanoseconds).console.configuration = console.configuration := by
  have hcycles : (console.frameCycles nanoseconds).state.configuration = console.configuration :=
    congrArg Prod.fst (console.setting_frameCycles nanoseconds)
  rw [runFrame_eq]
  cases hresult : console.frameCycles nanoseconds with
  | done next =>
    rw [hresult] at hcycles
    exact (configuration_runTicks _ _).trans hcycles
  | fault reason next => rwa [hresult] at hcycles

/-- The poll at the end of a frame lets a waiting draw go on, tick or no tick. -/
theorem isStalled_finishFrame (console : Console) (seconds : Float) :
    (console.finishFrame seconds).console.isStalled = false :=
  Bool.and_false _

/-- A frame that fails is not polled. -/
theorem reports_runFrame_of_error {console : Console} {nanoseconds : Nat} {reason : Fault}
    (h : (console.runFrame nanoseconds).report = .error reason) :
    Screen.Reports console.screen (console.runFrame nanoseconds).console.screen := by
  have hcycles : Screen.Reports console.screen (console.frameCycles nanoseconds).state.screen :=
    reports_runCycles _ _
  rw [runFrame_eq] at h ⊢
  cases hresult : console.frameCycles nanoseconds with
  | done next =>
    rw [hresult] at h
    cases h
  | fault _ next => rwa [hresult] at hcycles

/-- What the report of a frame says about the screen before and after it. -/
theorem raster_runFrame_of_ok {console next : Console} {nanoseconds : Nat}
    {report : FrameReport}
    (h : console.runFrame nanoseconds = { console := next, report := .ok report }) :
    report.changed = false →
      console.screen.changed = false ∧ next.screen.raster = console.screen.raster := by
  have hcycles : Screen.Reports console.screen (console.frameCycles nanoseconds).state.screen :=
    reports_runCycles _ _
  rw [runFrame_eq] at h
  cases hresult : console.frameCycles nanoseconds with
  | fault _ _ =>
    rw [hresult] at h
    cases h
  | done finished =>
    rw [hresult] at h hcycles
    have hticks := reports_runTicks (finished.ticksDue nanoseconds)
      (finished.earnTicks (Clock.seconds nanoseconds))
    cases h
    exact Screen.Reports.trans hcycles hticks

end ChipEight.Console
