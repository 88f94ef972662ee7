import ChipEight.Proofs.Console.Call

/-!
What a history of calls shows from outside and inside: the answers that a host gets, and the
consoles right before every step that the calls make. A condition on a run, such as that no
random byte is drawn in it, is a condition on its step points.
-/

namespace ChipEight.Console

/-- What a call returns to the host. -/
inductive Answer where
  | nothing
  | stepped (fault : Option Fault)
  | reported (report : Except Fault FrameReport)
  | loaded (refusal : Option LoadError)
  | played (samples : List Sample)

def answer (console : Console) : Call → Answer
  | .step => .stepped console.step.fault?
  | .frame nanoseconds => .reported (console.runFrame nanoseconds).report
  | .load image =>
    match console.load image with
    | .ok _ => .loaded none
    | .error reason => .loaded (some reason)
  | .output count sampleRate => .played (console.output count sampleRate).1
  | _ => .nothing

/-- The answers to one call after another. -/
def answers : List Call → Console → List Answer
  | [], _ => []
  | call :: calls, console => console.answer call :: answers calls (console.perform call)

/-- The consoles before the steps of `runCycles`, up to one that fails. -/
def cyclePoints : Nat → Console → List Console
  | 0, _ => []
  | count + 1, console =>
    console.spendCycle ::
      match console.spendCycle.step with
      | .done next => cyclePoints count next
      | .fault _ _ => []

/-- The consoles before the steps of a call. -/
def callPoints (console : Console) : Call → List Console
  | .step => [console]
  | .frame nanoseconds =>
    cyclePoints (console.cyclesDue nanoseconds) (console.earnCycles (Clock.seconds nanoseconds))
  | _ => []

/-- The consoles before all steps of a history, stalled ones too. -/
def stepPoints : List Call → Console → List Console
  | [], _ => []
  | call :: calls, console =>
    console.callPoints call ++ stepPoints calls (console.perform call)

/-- The machines as the instructions of these steps find them. A stalled step executes none. -/
def executed (points : List Console) : List Machine :=
  (points.filter (!·.isStalled)).map (·.machine)

theorem executed_append (points others : List Console) :
    executed (points ++ others) = executed points ++ executed others := by
  simp [executed]

/-- The machines as the instructions of a history find them. -/
def executions (calls : List Call) (console : Console) : List Machine :=
  executed (stepPoints calls console)

theorem mem_executions_iff (calls : List Call) (console : Console) (machine : Machine) :
    machine ∈ executions calls console ↔
      ∃ point ∈ stepPoints calls console, point.isStalled = false ∧ point.machine = machine := by
  simp [executions, executed, and_assoc]

/-- The call makes steps, and so its effect depends on the program. -/
def Call.runs : Call → Bool
  | .step | .frame _ => true
  | _ => false

/-- Steps and the clock keep the property. -/
structure Stable (property : Console → Prop) : Prop where
  step : ∀ {console : Console}, property console → property console.step.state
  earnCycles : ∀ {console : Console} seconds, property console →
    property (console.earnCycles seconds)
  spendCycle : ∀ {console : Console}, property console → property console.spendCycle
  earnTicks : ∀ {console : Console} seconds, property console →
    property (console.earnTicks seconds)
  tick : ∀ {console : Console}, property console → property console.tick
  poll : ∀ {console : Console}, property console →
    property (console.onMachine (·.onScreen (·.poll.1)))

namespace Stable

variable {property : Console → Prop}

theorem runCycles (stable : Stable property) (count : Nat) {console : Console}
    (h : property console) : property (Console.runCycles count console).state := by
  induction count generalizing console with
  | zero => exact h
  | succ count ih =>
    have hstep := stable.step (stable.spendCycle h)
    rw [Console.runCycles]
    cases hresult : console.spendCycle.step with
    | done next =>
      rw [hresult] at hstep
      exact ih hstep
    | fault reason left => rwa [hresult] at hstep

theorem runTicks (stable : Stable property) (count : Nat) {console : Console}
    (h : property console) : property (Console.runTicks count console) := by
  induction count generalizing console with
  | zero => exact h
  | succ count ih => exact ih (stable.tick h)

theorem runFrame (stable : Stable property) (nanoseconds : Nat) {console : Console}
    (h : property console) : property (console.runFrame nanoseconds).console := by
  have hcycles : property (console.frameCycles nanoseconds).state :=
    stable.runCycles _ (stable.earnCycles _ h)
  rw [runFrame_eq]
  cases hresult : console.frameCycles nanoseconds with
  | done next =>
    rw [hresult] at hcycles
    exact stable.poll (stable.runTicks _ (stable.earnTicks _ hcycles))
  | fault reason left => rwa [hresult] at hcycles

end Stable

/-- Neither a step nor the clock changes what the view shows. -/
structure Kept {View : Type} (view : Console → View) : Prop where
  step : ∀ console : Console, view console.step.state = view console
  earnCycles : ∀ (console : Console) seconds, view (console.earnCycles seconds) = view console
  spendCycle : ∀ console : Console, view console.spendCycle = view console
  earnTicks : ∀ (console : Console) seconds, view (console.earnTicks seconds) = view console
  tick : ∀ console : Console, view console.tick = view console
  poll : ∀ console : Console, view (console.onMachine (·.onScreen (·.poll.1))) = view console

namespace Kept

variable {View : Type} {view : Console → View}

/-- The view keeps the value that it has. -/
theorem stable (kept : Kept view) (value : View) : Stable (view · = value) where
  step h := (kept.step _).trans h
  earnCycles seconds h := (kept.earnCycles _ seconds).trans h
  spendCycle h := (kept.spendCycle _).trans h
  earnTicks seconds h := (kept.earnTicks _ seconds).trans h
  tick h := (kept.tick _).trans h
  poll h := (kept.poll _).trans h

theorem runFrame (kept : Kept view) (console : Console) (nanoseconds : Nat) :
    view (console.runFrame nanoseconds).console = view console :=
  (kept.stable _).runFrame nanoseconds rfl

theorem of_mem_cyclePoints (kept : Kept view) {count : Nat} {console point : Console}
    (h : point ∈ cyclePoints count console) : view point = view console := by
  induction count generalizing console with
  | zero => simp [cyclePoints] at h
  | succ count ih =>
    have hstep := (kept.step console.spendCycle).trans (kept.spendCycle console)
    rw [cyclePoints] at h
    rcases List.mem_cons.mp h with rfl | hlater
    · exact kept.spendCycle console
    · cases hresult : console.spendCycle.step with
      | done next =>
        rw [hresult] at hlater hstep
        exact (ih hlater).trans hstep
      | fault reason next =>
        rw [hresult] at hlater
        cases hlater

theorem perform (kept : Kept view) {call : Call} (hruns : call.runs = true) (console : Console) :
    view (console.perform call) = view console := by
  cases call with
  | step => exact kept.step console
  | frame nanoseconds => exact kept.runFrame console nanoseconds
  | _ => cases hruns

theorem of_mem_callPoints (kept : Kept view) {call : Call} {console point : Console}
    (h : point ∈ console.callPoints call) : view point = view console := by
  cases call with
  | step => rw [List.mem_singleton.mp h]
  | frame nanoseconds =>
    have hcycles : point ∈ cyclePoints (console.cyclesDue nanoseconds) _ := h
    exact (kept.of_mem_cyclePoints hcycles).trans (kept.earnCycles _ _)
  | _ => cases h

/-- Where the other calls of a history do not change it either, all its steps see the same. -/
theorem of_mem_stepPoints (kept : Kept view) {calls : List Call} {console point : Console}
    (hcalls : ∀ call ∈ calls, call.runs = false →
      ∀ console : Console, view (console.perform call) = view console)
    (h : point ∈ stepPoints calls console) : view point = view console := by
  induction calls generalizing console with
  | nil => simp [stepPoints] at h
  | cons call calls ih =>
    rw [stepPoints] at h
    rcases List.mem_append.mp h with hfirst | hlater
    · exact kept.of_mem_callPoints hfirst
    · have hperform : view (console.perform call) = view console := by
        cases hruns : call.runs with
        | true => exact kept.perform hruns console
        | false => exact hcalls call (by simp) hruns console
      exact (ih (fun c hc => hcalls c (List.mem_cons_of_mem _ hc)) hlater).trans hperform

end Kept

end ChipEight.Console
