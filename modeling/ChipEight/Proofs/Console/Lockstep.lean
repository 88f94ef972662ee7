import ChipEight.Console.Listing
import ChipEight.Proofs.Console.StepPoint
import ChipEight.Proofs.Machine.Disguise

/-!
Two consoles that differ by a disguise, called in the same way. If the disguise is not seen
through at any step of the first run, both runs give the same answers, and they end as far
apart as they began.
-/

namespace ChipEight

theorem Outcome.fault?_map {State Other : Type} (f : State → Other) (outcome : Outcome State) :
    (outcome.map f).fault? = outcome.fault? := by
  cases outcome <;> rfl

/-- The call gives the console a dialect, whatever it had before. -/
def Console.Call.setsDialect : Console.Call → Bool
  | .load _ | .configure _ | .setDialect _ => true
  | _ => false

namespace Disguise

variable (disguise : Disguise)

def console (console : Console) : Console :=
  { console with
    machine := disguise.machine console.machine
    configuration :=
      { console.configuration with
        dialect := disguise.configured console.configuration.dialect } }

/-- A step of the console works alike in the disguise. -/
def HidesAt (point : Console) : Prop :=
  (disguise.console point).step = point.step.map disguise.console

theorem runCycles_console {count : Nat} {console : Console}
    (h : ∀ point ∈ Console.cyclePoints count console, disguise.HidesAt point) :
    Console.runCycles count (disguise.console console) =
      (Console.runCycles count console).map disguise.console := by
  induction count generalizing console with
  | zero => rfl
  | succ count ih =>
    have hstep : (disguise.console console.spendCycle).step =
        console.spendCycle.step.map disguise.console := h _ (by simp [Console.cyclePoints])
    have hspend : (disguise.console console).spendCycle = disguise.console console.spendCycle :=
      rfl
    rw [Console.runCycles, Console.runCycles, hspend, hstep]
    cases hresult : console.spendCycle.step with
    | done next =>
      refine ih fun point hpoint => h point ?_
      rw [Console.cyclePoints, hresult]
      exact List.mem_cons_of_mem _ hpoint
    | fault reason next => rfl

theorem runTicks_console (count : Nat) (console : Console) :
    Console.runTicks count (disguise.console console) =
      disguise.console (Console.runTicks count console) := by
  induction count generalizing console with
  | zero => rfl
  | succ count ih => exact ih console.tick

theorem finishFrame_console (console : Console) (seconds : Float) :
    (disguise.console console).finishFrame seconds =
      { console := disguise.console (console.finishFrame seconds).console
        report := (console.finishFrame seconds).report } := by
  have hearn : (disguise.console console).earnTicks seconds =
      disguise.console (console.earnTicks seconds) := rfl
  have hcredit : (disguise.console (console.earnTicks seconds)).tickCredit =
      (console.earnTicks seconds).tickCredit := rfl
  simp only [Console.finishFrame, hearn, hcredit, runTicks_console]
  rfl

theorem runFrame_console {console : Console} {nanoseconds : Nat}
    (h : ∀ point ∈ console.callPoints (.frame nanoseconds), disguise.HidesAt point) :
    (disguise.console console).runFrame nanoseconds =
      { console := disguise.console (console.runFrame nanoseconds).console
        report := (console.runFrame nanoseconds).report } := by
  have hcycles : (disguise.console console).frameCycles nanoseconds =
      (console.frameCycles nanoseconds).map disguise.console := disguise.runCycles_console h
  rw [Console.runFrame_eq, Console.runFrame_eq, hcycles]
  cases console.frameCycles nanoseconds with
  | done next => exact disguise.finishFrame_console next _
  | fault reason next => rfl

/-- Only the random source is another one. -/
def KeepsDialects : Prop :=
  disguise.configured = id ∧ disguise.executed = id

theorem configure_console (hkeeps : disguise.KeepsDialects) (console : Console)
    (configuration : Configuration) :
    (disguise.console console).configure configuration =
      disguise.console (console.configure configuration) := by
  obtain ⟨configured, executed, random⟩ := disguise
  obtain ⟨hconfigured, hexecuted⟩ := hkeeps
  cases hconfigured
  cases hexecuted
  rfl

theorem setDialect_console (hkeeps : disguise.KeepsDialects) (console : Console)
    (dialect : Dialect) :
    (disguise.console console).setDialect dialect =
      disguise.console (console.setDialect dialect) := by
  obtain ⟨configured, executed, random⟩ := disguise
  obtain ⟨hconfigured, hexecuted⟩ := hkeeps
  cases hconfigured
  cases hexecuted
  rfl

theorem load_console (hkeeps : disguise.KeepsDialects) (console : Console) (image : List UInt8) :
    (disguise.console console).load image = (console.load image).map disguise.console := by
  obtain ⟨configured, executed, random⟩ := disguise
  obtain ⟨hconfigured, hexecuted⟩ := hkeeps
  cases hconfigured
  cases hexecuted
  unfold Console.load
  cases Memory.blank.load image <;> rfl

theorem perform_console {console : Console} {call : Console.Call}
    (hcall : disguise.KeepsDialects ∨ call.setsDialect = false)
    (h : ∀ point ∈ console.callPoints call, disguise.HidesAt point) :
    (disguise.console console).perform call = disguise.console (console.perform call) ∧
      (disguise.console console).answer call = console.answer call := by
  cases call with
  | step =>
    have hstep : (disguise.console console).step = console.step.map disguise.console :=
      h console (by simp [Console.callPoints])
    simp only [Console.perform, Console.answer, hstep, Outcome.state_map, Outcome.fault?_map,
      and_self]
  | frame nanoseconds =>
    simp only [Console.perform, Console.answer, disguise.runFrame_console h, and_self]
  | load image =>
    have hkeeps := hcall.resolve_right (by simp [Console.Call.setsDialect])
    simp only [Console.perform, Console.answer, disguise.load_console hkeeps]
    cases console.load image <;> exact ⟨rfl, rfl⟩
  | configure configuration =>
    have hkeeps := hcall.resolve_right (by simp [Console.Call.setsDialect])
    exact ⟨disguise.configure_console hkeeps console configuration, rfl⟩
  | setDialect dialect =>
    have hkeeps := hcall.resolve_right (by simp [Console.Call.setsDialect])
    exact ⟨disguise.setDialect_console hkeeps console dialect, rfl⟩
  | _ => exact ⟨rfl, rfl⟩

/-- A disguise that holds at every step of the first run holds to the end of it. -/
theorem lockstep {console : Console} {calls : List Console.Call}
    (hcalls : disguise.KeepsDialects ∨ ∀ call ∈ calls, call.setsDialect = false)
    (h : ∀ point ∈ Console.stepPoints calls console, disguise.HidesAt point) :
    Console.answers calls (disguise.console console) = Console.answers calls console ∧
      (disguise.console console).performAll calls =
        disguise.console (console.performAll calls) := by
  induction calls generalizing console with
  | nil => exact ⟨rfl, rfl⟩
  | cons call calls ih =>
    rw [Console.stepPoints] at h
    obtain ⟨hperform, hanswer⟩ := disguise.perform_console
      (hcalls.imp_right fun hnone => hnone call (by simp))
      (fun point hpoint => h point (List.mem_append_left _ hpoint))
    obtain ⟨hanswers, hstate⟩ := ih
      (hcalls.imp_right fun hnone call hcall => hnone call (List.mem_cons_of_mem _ hcall))
      (fun point hpoint => h point (List.mem_append_right _ hpoint))
    rw [Console.answers, Console.answers, Console.performAll_cons, Console.performAll_cons,
      hperform, hanswer, hanswers, hstate]
    exact ⟨rfl, rfl⟩

/-- What a step needs of a disguise: the same answer to whether it is stalled, and, if it is not,
no switch consulted and no byte drawn that the disguise has changed. -/
theorem hidesAt_of_agree {point : Console}
    (hstalled : (disguise.console point).isStalled = point.isStalled)
    (hswitches : point.isStalled = false →
      ∀ switch ∈ point.machine.next.consulted point.screen.highResolution,
        (disguise.executed point.machine.cpu.dialect).isOn switch =
          point.machine.cpu.dialect.isOn switch)
    (hrandom : point.isStalled = false → point.machine.next.drawsRandom = true →
      ∀ source, disguise.random source = source) :
    disguise.HidesAt point := by
  rw [HidesAt, Console.step_eq, Console.step_eq, hstalled]
  cases hfree : point.isStalled with
  | true => rfl
  | false =>
    have hstep : (disguise.console point).machine.step =
        point.machine.step.map disguise.machine :=
      disguise.step_machine point.machine (hswitches hfree) (hrandom hfree)
    simp only [Bool.false_eq_true, if_false, hstep]
    cases point.machine.step <;> rfl

/-- With the dialects kept, only a random byte tells. -/
theorem hidesAt_of_keepsDialects (hkeeps : disguise.KeepsDialects) {point : Console}
    (hrandom : point.isStalled = false → point.machine.next.drawsRandom = true →
      ∀ source, disguise.random source = source) :
    disguise.HidesAt point := by
  obtain ⟨configured, executed, random⟩ := disguise
  obtain ⟨hconfigured, hexecuted⟩ := hkeeps
  cases hconfigured
  cases hexecuted
  apply hidesAt_of_agree
  · rfl
  · intro _ switch _
    rfl
  · exact hrandom

theorem foretell_console (hkeeps : disguise.KeepsDialects) {count : Nat} {console : Console}
    (hrandom : ∀ entry ∈ Console.foretell count console, entry.instruction.drawsRandom = true →
      ∀ source, disguise.random source = source) :
    Console.foretell count (disguise.console console) = Console.foretell count console := by
  induction count generalizing console with
  | zero => rfl
  | succ count ih =>
    have hentry : (disguise.console console).nextEntry = console.nextEntry := rfl
    have hstep : (disguise.console console).step = console.step.map disguise.console := by
      refine disguise.hidesAt_of_keepsDialects hkeeps fun _ => hrandom console.nextEntry ?_
      simp only [Console.foretell]
      cases console.step <;> simp
    simp only [Console.foretell, hentry, hstep] at hrandom ⊢
    cases hresult : console.step with
    | done next =>
      rw [hresult] at hrandom
      exact congrArg _ (ih fun entry hmem => hrandom entry (List.mem_cons_of_mem _ hmem))
    | fault reason next => rfl

end Disguise

end ChipEight
