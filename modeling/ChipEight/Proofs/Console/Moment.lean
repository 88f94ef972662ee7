import ChipEight.Proofs.Console.StepPoint

/-!
A history moment by moment: the machines as the instructions find them, with the ticks of the
60 Hz clock and the loads in between. A part of the machine that nothing but steps, ticks and
loads changes goes through a history from one moment to the next. Beside the calls of a host a
history may have ticks of its own, so that steps and ticks come in any order.
-/

namespace ChipEight

inductive Moment where
  /-- An instruction was taken up by this machine. It may have failed. -/
  | executed (machine : Machine)
  | ticked
  | loaded

def Moment.isTick : Moment → Bool
  | ticked => true
  | _ => false

namespace Console

/-- A call of the host, or a tick of the clock that no frame makes. -/
inductive Turn where
  | call (call : Call)
  | tick

def take (console : Console) : Turn → Console
  | .call call => console.perform call
  | .tick => console.tick

def takeAll (console : Console) (turns : List Turn) : Console :=
  turns.foldl take console

/-- The ticks of a frame, of which one that fails has none. -/
def ticksMade (console : Console) (nanoseconds : Nat) : Nat :=
  match console.frameCycles nanoseconds with
  | .done next => next.ticksDue nanoseconds
  | .fault _ _ => 0

/-- What follows the steps of a call. -/
def closingMoments (console : Console) (call : Call) : List Moment :=
  match call with
  | .frame nanoseconds => List.replicate (console.ticksMade nanoseconds) .ticked
  | .load _ => if call.loads then [.loaded] else []
  | _ => []

def callMoments (console : Console) (call : Call) : List Moment :=
  (executed (console.callPoints call)).map .executed ++ console.closingMoments call

def turnMoments (console : Console) : Turn → List Moment
  | .call call => console.callMoments call
  | .tick => [.ticked]

/-- The moments of a whole history. -/
def moments : List Turn → Console → List Moment
  | [], _ => []
  | turn :: turns, console => console.turnMoments turn ++ moments turns (console.take turn)

theorem moments_append (earlier later : List Turn) (console : Console) :
    moments (earlier ++ later) console =
      moments earlier console ++ moments later (console.takeAll earlier) := by
  induction earlier generalizing console with
  | nil => rfl
  | cons turn earlier ih =>
    rw [List.cons_append, moments, moments, ih (console.take turn), List.append_assoc]
    rfl

theorem moments_step {console : Console} (h : console.isStalled = false) :
    moments [.call .step] console = [.executed console.machine] := by
  simp [moments, turnMoments, callMoments, closingMoments, callPoints, executed, h]

end Console

/-- A part of the machine, with what becomes of it in a tick and in a load. -/
structure Aspect (View : Type) where
  view : Machine → View
  tick : View → View
  load : View → View

namespace Aspect

variable {View : Type} (aspect : Aspect View)

/-- Beside the steps, only ticks and loads change the part. -/
structure Lawful : Prop where
  tick : ∀ machine : Machine, aspect.view machine.tick = aspect.tick (aspect.view machine)
  poll : ∀ machine : Machine, aspect.view (machine.onScreen (·.poll.1)) = aspect.view machine
  perform : ∀ (console : Console) {call : Console.Call}, call.runs = false →
    aspect.view (console.perform call).machine =
      if call.loads then aspect.load (aspect.view console.machine)
      else aspect.view console.machine

/-- The part at the start, with each moment in its turn, and at the end. -/
def Leads : View → List Moment → View → Prop
  | start, [], stop => start = stop
  | start, .executed machine :: rest, stop =>
    aspect.view machine = start ∧ Leads (aspect.view machine.step.state) rest stop
  | start, .ticked :: rest, stop => Leads (aspect.tick start) rest stop
  | start, .loaded :: rest, stop => Leads (aspect.load start) rest stop

variable {aspect}

theorem leads_append_iff {start stop : View} {earlier later : List Moment} :
    aspect.Leads start (earlier ++ later) stop ↔
      ∃ middle, aspect.Leads start earlier middle ∧ aspect.Leads middle later stop := by
  induction earlier generalizing start with
  | nil => simp [Leads]
  | cons moment earlier ih =>
    cases moment with
    | executed machine => simp only [List.cons_append, Leads, ih, and_assoc, exists_and_left]
    | ticked => simp only [List.cons_append, Leads, ih]
    | loaded => simp only [List.cons_append, Leads, ih]

theorem Leads.append {start middle stop : View} {earlier later : List Moment}
    (hearlier : aspect.Leads start earlier middle) (hlater : aspect.Leads middle later stop) :
    aspect.Leads start (earlier ++ later) stop :=
  leads_append_iff.mpr ⟨middle, hearlier, hlater⟩

variable (aspect)

theorem leads_step (point : Console) :
    aspect.Leads (aspect.view point.machine) ((Console.executed [point]).map .executed)
      (aspect.view point.step.state.machine) := by
  rw [Console.step_eq]
  cases hstalled : point.isStalled with
  | true => simp [Console.executed, hstalled, Leads, Outcome.state]
  | false => simp [Console.executed, hstalled, Leads, Outcome.state_map]

theorem leads_runCycles (count : Nat) (console : Console) :
    aspect.Leads (aspect.view console.machine)
      ((Console.executed (Console.cyclePoints count console)).map .executed)
      (aspect.view (Console.runCycles count console).state.machine) := by
  induction count generalizing console with
  | zero => rfl
  | succ count ih =>
    have hstep : aspect.Leads (aspect.view console.machine)
        ((Console.executed [console.spendCycle]).map .executed)
        (aspect.view console.spendCycle.step.state.machine) := aspect.leads_step console.spendCycle
    rw [Console.cyclePoints, Console.runCycles, ← List.singleton_append, Console.executed_append,
      List.map_append]
    cases hresult : console.spendCycle.step with
    | done next =>
      rw [hresult] at hstep
      exact hstep.append (ih next)
    | fault reason left =>
      rw [hresult] at hstep
      exact hstep.append rfl

/-- The cycles of a frame. -/
theorem leads_frameCycles (console : Console) (nanoseconds : Nat) :
    aspect.Leads (aspect.view console.machine)
      ((Console.executed (console.callPoints (.frame nanoseconds))).map .executed)
      (aspect.view (console.frameCycles nanoseconds).state.machine) :=
  aspect.leads_runCycles (console.cyclesDue nanoseconds)
    (console.earnCycles (Clock.seconds nanoseconds))

variable {aspect}

theorem Lawful.leads_runTicks (lawful : aspect.Lawful) (count : Nat) (console : Console) :
    aspect.Leads (aspect.view console.machine) (List.replicate count .ticked)
      (aspect.view (Console.runTicks count console).machine) := by
  induction count generalizing console with
  | zero => rfl
  | succ count ih =>
    have htick : aspect.view console.tick.machine = aspect.tick (aspect.view console.machine) :=
      lawful.tick console.machine
    rw [List.replicate_succ, Leads, ← htick, Console.runTicks]
    exact ih console.tick

theorem Lawful.leads_runFrame (lawful : aspect.Lawful) (console : Console) (nanoseconds : Nat) :
    aspect.Leads (aspect.view console.machine) (console.callMoments (.frame nanoseconds))
      (aspect.view (console.runFrame nanoseconds).console.machine) := by
  have hcycles := aspect.leads_frameCycles console nanoseconds
  rw [Console.callMoments, Console.closingMoments, Console.ticksMade, Console.runFrame_eq]
  cases hresult : console.frameCycles nanoseconds with
  | done next =>
    rw [hresult] at hcycles
    have hticks := lawful.leads_runTicks (next.ticksDue nanoseconds)
      (next.earnTicks (Clock.seconds nanoseconds))
    have hpoll : aspect.view (next.finishFrame (Clock.seconds nanoseconds)).console.machine =
        aspect.view (Console.runTicks (next.ticksDue nanoseconds)
          (next.earnTicks (Clock.seconds nanoseconds))).machine := lawful.poll _
    simp only [hpoll]
    exact hcycles.append hticks
  | fault reason left =>
    rw [hresult] at hcycles
    exact hcycles.append rfl

theorem Lawful.leads_perform (lawful : aspect.Lawful) (console : Console)
    (call : Console.Call) :
    aspect.Leads (aspect.view console.machine) (console.callMoments call)
      (aspect.view (console.perform call).machine) := by
  cases hruns : call.runs with
  | true =>
    cases call with
    | step => exact (aspect.leads_step console).append rfl
    | frame nanoseconds => exact lawful.leads_runFrame console nanoseconds
    | _ => cases hruns
  | false =>
    rw [lawful.perform console hruns]
    cases call with
    | step | frame _ => cases hruns
    | load image =>
      rw [Console.callMoments, Console.closingMoments]
      cases (Console.Call.load image).loads <;> rfl
    | _ => rfl

theorem Lawful.leads_take (lawful : aspect.Lawful) (console : Console) (turn : Console.Turn) :
    aspect.Leads (aspect.view console.machine) (console.turnMoments turn)
      (aspect.view (console.take turn).machine) := by
  cases turn with
  | call call => exact lawful.leads_perform console call
  | tick => exact (lawful.tick console.machine).symm

/-- A part of the machine goes through a history from one moment to the next. -/
theorem Lawful.leads_takeAll (lawful : aspect.Lawful) (turns : List Console.Turn)
    (console : Console) :
    aspect.Leads (aspect.view console.machine) (Console.moments turns console)
      (aspect.view (console.takeAll turns).machine) := by
  induction turns generalizing console with
  | nil => rfl
  | cons turn turns ih => exact (lawful.leads_take console turn).append (ih (console.take turn))

end Aspect

end ChipEight
