import ChipEight.Proofs.Machine.StackFault
import Mathlib.Logic.Function.Iterate

/-!
A frame is a schedule of steps and ticks. How many there are of each, and what credit is left,
follows from the clock and the time alone: a program can break the schedule off by a fault,
but not change it.
-/

namespace ChipEight

namespace Clock

/-- A credit after some units were taken off it, one by one. -/
def spend : Nat → Float → Float
  | 0, credit => credit
  | count + 1, credit => spend count (credit - 1.0)

/-- Taking units off a credit while one is due ends after `count` of them, if it ends within
the next whole number of the credit at all. -/
structure Counts (credit : Float) (count : Nat) : Prop where
  due : ∀ k < count, isDue (spend k credit) = true
  ends : ∀ k ≤ credit.toUInt64.toNat + 1, isDue (spend k credit) = false →
    isDue (spend count credit) = false

theorem exists_countDue (bound : Nat) (credit : Float) (counted : Nat) :
    ∃ count ≤ bound, countDue bound credit counted = counted + count ∧
      (∀ k < count, isDue (spend k credit) = true) ∧
      (count < bound → isDue (spend count credit) = false) := by
  induction bound generalizing credit counted with
  | zero => exact ⟨0, Nat.le_refl 0, rfl, by simp, by simp⟩
  | succ bound ih =>
    rw [countDue]
    cases hdue : isDue credit with
    | false => exact ⟨0, Nat.zero_le _, rfl, by simp, fun _ => hdue⟩
    | true =>
      obtain ⟨count, hbound, hcount, hbefore, hafter⟩ := ih (credit - 1.0) (counted + 1)
      refine ⟨count + 1, by omega, by rw [if_pos rfl, hcount]; omega, ?_, ?_⟩
      · intro k hk
        cases k with
        | zero => exact hdue
        | succ k => exact hbefore k (by omega)
      · intro hlt
        exact hafter (by omega)

theorem counts_due (credit : Float) : Counts credit (due credit) := by
  obtain ⟨count, hbound, hcount, hbefore, hafter⟩ :=
    exists_countDue (credit.toUInt64.toNat + 1) credit 0
  have heq : due credit = count := by rw [due, hcount, Nat.zero_add]
  rw [heq]
  refine ⟨hbefore, ?_⟩
  intro k hk hidle
  by_cases hlt : count < credit.toUInt64.toNat + 1
  · exact hafter hlt
  · -- All units before the bound are due, so that `k` can only be the bound itself.
    have hge : count ≤ k := by
      by_contra hk'
      rw [hbefore k (by omega)] at hidle
      cases hidle
    have hk' : k = count := by omega
    rwa [hk'] at hidle

/-- All that the schedule of a frame depends on beside the time. -/
structure State where
  cycleCredit : Float
  tickCredit : Float
  tickrate : UInt32

structure Schedule where
  /-- The credits once the time of the frame is added. -/
  cycleCredit : Float
  tickCredit : Float
  cycles : Nat
  ticks : Nat
  cycles_counted : Counts cycleCredit cycles
  ticks_counted : Counts tickCredit ticks

def schedule (clock : State) (nanoseconds : Nat) : Schedule :=
  let cycleCredit := clock.cycleCredit + clock.tickrate.toFloat * 60.0 * seconds nanoseconds
  let tickCredit := clock.tickCredit + ticksPerSecond * seconds nanoseconds
  { cycleCredit
    tickCredit
    cycles := due cycleCredit
    ticks := due tickCredit
    cycles_counted := counts_due cycleCredit
    ticks_counted := counts_due tickCredit }

end Clock

namespace Machine

/-- What a number of ticks, one after another, do to a machine. -/
def TicksTimes : Nat → Machine → Machine → Prop
  | 0, before, after => after = before
  | count + 1, before, after => ∃ next, before.Ticks next ∧ TicksTimes count next after

theorem ticksTimes_iterate (count : Nat) (machine : Machine) :
    machine.TicksTimes count (Machine.tick^[count] machine) := by
  induction count generalizing machine with
  | zero => rfl
  | succ count ih => exact ⟨machine.tick, machine.ticks_tick, ih machine.tick⟩

/-- The screen as a poll leaves it: nothing is marked as changed, and no draw waits. -/
def polled (machine : Machine) : Machine :=
  { machine with screen := { machine.screen with changed := false, awaitingBlank := false } }

end Machine

namespace Console

def clock (console : Console) : Clock.State where
  cycleCredit := console.cycleCredit
  tickCredit := console.tickCredit
  tickrate := console.configuration.tickrate

/-- Steps up to the first fault, without a clock. A stalled step is one of them. -/
def steps : Nat → Console → Outcome Console
  | 0, console => .done console
  | count + 1, console =>
    match console.step with
    | .done next => steps count next
    | .fault reason left => .fault reason left

/-- The frame makes the cycles of the schedule, each a step, then its ticks and a poll. It reports
whether the sound was on before the ticks, and what is marked as changed after them. If a step
fails, the cycles up to this one are spent and nothing more is done. -/
structure Follows (console : Console) (nanoseconds : Nat) (schedule : Clock.Schedule) : Prop where
  completes : ∀ next, steps schedule.cycles console = .done next →
    ∃ ticked, next.machine.TicksTimes schedule.ticks ticked ∧
      console.runFrame nanoseconds =
        { console :=
            { machine := ticked.polled
              configuration := console.configuration
              cycleCredit := Clock.spend schedule.cycles schedule.cycleCredit
              tickCredit := Clock.spend schedule.ticks schedule.tickCredit }
          report := .ok
            { changed := ticked.screen.changed
              beeping := decide (0 < next.machine.sound.timer.remaining.toNat) } }
  breaksOff : ∀ ran before left reason, ran < schedule.cycles →
    steps ran console = .done before → before.step = .fault reason left →
    console.runFrame nanoseconds =
      { console :=
          { machine := before.machine
            configuration := console.configuration
            cycleCredit := Clock.spend (ran + 1) schedule.cycleCredit
            tickCredit := console.tickCredit }
        report := .error reason }

def withCycleCredit (console : Console) (credit : Float) : Console :=
  { console with cycleCredit := credit }

/-- A step does not look at the credit, so that its cycle can be charged before or after. -/
theorem step_spendCycle (console : Console) (credit : Float) :
    (console.withCycleCredit credit).spendCycle.step =
      console.step.map (·.withCycleCredit (credit - 1.0)) := by
  have hstalled : (console.withCycleCredit credit).spendCycle.isStalled = console.isStalled := rfl
  rw [step_eq, step_eq, hstalled]
  split
  · rfl
  · simp only [withCycleCredit, spendCycle]
    cases console.machine.step <;> rfl

theorem runCycles_of_done {console next : Console} {count : Nat}
    (h : steps count console = .done next) (credit : Float) :
    runCycles count (console.withCycleCredit credit) =
      .done (next.withCycleCredit (Clock.spend count credit)) := by
  induction count generalizing console credit with
  | zero =>
    cases h
    rfl
  | succ count ih =>
    rw [steps] at h
    rw [runCycles, step_spendCycle]
    cases hstep : console.step with
    | done mid =>
      rw [hstep] at h
      exact ih h (credit - 1.0)
    | fault reason left =>
      rw [hstep] at h
      cases h

/-- The step that fails leaves nothing but the charge for its cycle. -/
theorem runCycles_of_fault {console before left : Console} {ran count : Nat} {reason : Fault}
    (hran : ran < count) (h : steps ran console = .done before)
    (hfault : before.step = .fault reason left) (credit : Float) :
    runCycles count (console.withCycleCredit credit) =
      .fault reason (before.withCycleCredit (Clock.spend (ran + 1) credit)) := by
  induction ran generalizing console count credit with
  | zero =>
    obtain ⟨count, rfl⟩ : ∃ m, count = m + 1 := ⟨count - 1, by omega⟩
    obtain ⟨rfl, -⟩ := (step_fails_iff _ _ _).mp hfault
    cases h
    rw [runCycles, step_spendCycle, hfault]
    rfl
  | succ ran ih =>
    obtain ⟨count, rfl⟩ : ∃ m, count = m + 1 := ⟨count - 1, by omega⟩
    rw [steps] at h
    rw [runCycles, step_spendCycle]
    cases hstep : console.step with
    | done mid =>
      rw [hstep] at h
      exact ih (by omega) h (credit - 1.0)
    | fault found mid =>
      rw [hstep] at h
      cases h

theorem runTicks_eq (count : Nat) (console : Console) :
    runTicks count console =
      { console with
        machine := Machine.tick^[count] console.machine
        tickCredit := Clock.spend count console.tickCredit } := by
  induction count generalizing console with
  | zero => rfl
  | succ count ih =>
    rw [runTicks, ih]
    rfl

theorem setting_steps {console next : Console} {count : Nat}
    (h : steps count console = .done next) : next.setting = console.setting := by
  have hkept := setting_runCycles count console
  have hrun : runCycles count console = _ := runCycles_of_done h console.cycleCredit
  rw [hrun] at hkept
  exact hkept

theorem runFrame_of_steps_done {console next : Console} {nanoseconds : Nat}
    (h : steps (console.cyclesDue nanoseconds) console = .done next) :
    console.runFrame nanoseconds =
      (next.withCycleCredit (Clock.spend (console.cyclesDue nanoseconds)
        (console.earnCycles (Clock.seconds nanoseconds)).cycleCredit)).finishFrame
          (Clock.seconds nanoseconds) := by
  have hframe : console.frameCycles nanoseconds = _ := runCycles_of_done h _
  rw [runFrame_eq, hframe]
  rfl

theorem runFrame_of_step_fault {console before left : Console} {nanoseconds ran : Nat}
    {reason : Fault} (hran : ran < console.cyclesDue nanoseconds)
    (h : steps ran console = .done before) (hfault : before.step = .fault reason left) :
    console.runFrame nanoseconds =
      { console := before.withCycleCredit (Clock.spend (ran + 1)
          (console.earnCycles (Clock.seconds nanoseconds)).cycleCredit)
        report := .error reason } := by
  have hframe : console.frameCycles nanoseconds = _ := runCycles_of_fault hran h hfault _
  rw [runFrame_eq, hframe]
  rfl

/-- Frames of consoles with equal clocks follow one schedule, whatever their programs, dialects,
screens and keys are. -/
theorem follows_schedule {console other : Console} (hclock : other.clock = console.clock)
    (nanoseconds : Nat) :
    other.Follows nanoseconds (Clock.schedule console.clock nanoseconds) := by
  rw [← hclock]
  constructor
  · intro next hsteps
    have hconfiguration : next.configuration = other.configuration :=
      congrArg Prod.fst (setting_steps hsteps)
    have hcredit : next.tickCredit = other.tickCredit :=
      congrArg Prod.snd (setting_steps hsteps)
    refine ⟨_, next.machine.ticksTimes_iterate _, ?_⟩
    rw [runFrame_of_steps_done hsteps, ← Timer.isRunning_eq_decide]
    simp only [finishFrame, runTicks_eq, earnTicks, withCycleCredit, hcredit, hconfiguration]
    rfl
  · intro ran before left reason hran hsteps hfault
    have hconfiguration : before.configuration = other.configuration :=
      congrArg Prod.fst (setting_steps hsteps)
    have hcredit : before.tickCredit = other.tickCredit :=
      congrArg Prod.snd (setting_steps hsteps)
    rw [runFrame_of_step_fault hran hsteps hfault]
    simp only [withCycleCredit, hcredit, hconfiguration]
    rfl

/-- A console with a program, given three cycles a frame. -/
def threeCycles (image : List UInt8) : Console :=
  (ofImage image).setTickrate 3

theorem clock_threeCycles (first second : List UInt8) :
    (threeCycles first).clock = (threeCycles second).clock := rfl

/-- Starts the sound and returns without a call. -/
def strayReturn : Console :=
  threeCycles [0x60, 0x05, 0xF0, 0x18, 0x00, 0xEE]

/-- Starts the sound and goes round. -/
def soundLoop : Console :=
  threeCycles [0x60, 0x05, 0xF0, 0x18, 0x12, 0x04]

/-- The third step of one program breaks the schedule off, and the other keeps it. -/
theorem follows_schedule_strayReturn :
    soundLoop.clock = strayReturn.clock ∧
      (strayReturn.runFrame Clock.frame).report = .error (.callStackEmpty 0x204) ∧
      (strayReturn.runFrame Clock.frame).console.machine.sound.timer.remaining = 5 ∧
      (soundLoop.runFrame Clock.frame).report = .ok { changed := false, beeping := true } ∧
      (soundLoop.runFrame Clock.frame).console.machine.sound.timer.remaining = 4 := by
  have hclock : soundLoop.clock = strayReturn.clock := clock_threeCycles _ _
  have hstray := follows_schedule (rfl : strayReturn.clock = strayReturn.clock) Clock.frame
  have hloop := follows_schedule hclock Clock.frame
  have hran : 2 < (Clock.schedule strayReturn.clock Clock.frame).cycles := by decide +kernel
  have hbefore : steps 2 strayReturn = .done (steps 2 strayReturn).state :=
    Outcome.eq_done (by decide +kernel)
  have hfault : (steps 2 strayReturn).state.step =
      .fault (.callStackEmpty 0x204) (steps 2 strayReturn).state.step.state :=
    Outcome.eq_fault (by decide +kernel)
  have hsteps : steps (Clock.schedule strayReturn.clock Clock.frame).cycles soundLoop = .done _ :=
    Outcome.eq_done (by decide +kernel)
  have hone : (Clock.schedule strayReturn.clock Clock.frame).ticks = 1 := by decide +kernel
  have hcompletes := hloop.completes _ hsteps
  rw [hone] at hcompletes
  obtain ⟨ticked, ⟨_, htick, rfl⟩, hframe⟩ := hcompletes
  have hleft : ticked.sound.timer.remaining.toNat = 4 := by
    rw [htick.sound]
    decide +kernel
  rw [hstray.breaksOff 2 _ _ _ hran hbefore hfault, hframe]
  refine ⟨hclock, rfl, ?_, ?_, ?_⟩
  · decide +kernel
  · rw [htick.screen]
    apply congrArg Except.ok
    decide +kernel
  · exact UInt8.toNat_inj.mp hleft

end Console

end ChipEight
