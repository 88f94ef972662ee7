import ChipEight.Proofs.Console.Lockstep

/-!
How far a dialect reaches. Two consoles that differ in their dialects only run alike as long as
the first executes no instruction that consults a switch in which they differ, and makes no
step while a draw waits if they differ in whether draws wait.
-/

namespace ChipEight.Console

/-- The dialect of the settings and the processor's copy of it. -/
def dialects (console : Console) : Dialect × Dialect :=
  (console.configuration.dialect, console.machine.cpu.dialect)

theorem dialects_step (console : Console) : console.step.state.dialects = console.dialects := by
  rw [step_eq]
  split
  · rfl
  · rw [Outcome.state_map]
    exact congrArg (console.configuration.dialect, ·) console.machine.dialect_step

theorem kept_dialects : Kept dialects where
  step := dialects_step
  spendCycle := fun _ => rfl
  earnCycles := fun _ _ => rfl
  tick := fun _ => rfl
  earnTicks := fun _ _ => rfl
  poll := fun _ => rfl

theorem dialects_of_mem_stepPoints {calls : List Call} {console point : Console}
    (hcalls : ∀ call ∈ calls, call.setsDialect = false) (h : point ∈ stepPoints calls console) :
    point.dialects = console.dialects := by
  refine kept_dialects.of_mem_stepPoints (fun call hcall _ other => ?_) h
  have hsets := hcalls call hcall
  cases call with
  | load image => cases hsets
  | configure configuration => cases hsets
  | setDialect dialect => cases hsets
  | step => exact other.dialects_step
  | frame nanoseconds => exact kept_dialects.runFrame other nanoseconds
  | _ => rfl

/-- Equal in everything but the dialects. -/
def SameButDialect (first second : Console) : Prop :=
  ∀ dialect, first.setDialect dialect = second.setDialect dialect

/-- Gives a console the dialects of another. -/
def dialectsOf (other : Console) : Disguise :=
  { configured := fun _ => other.configuration.dialect
    executed := fun _ => other.machine.cpu.dialect }

theorem SameButDialect.eq_console {first second : Console} (h : first.SameButDialect second) :
    second = (dialectsOf second).console first :=
  calc second = (dialectsOf second).console (second.setDialect .modern) := rfl
    _ = (dialectsOf second).console (first.setDialect .modern) := by rw [h .modern]
    _ = (dialectsOf second).console first := rfl

theorem sameButDialect_console (other console : Console) :
    console.SameButDialect ((dialectsOf other).console console) :=
  fun _ => rfl

/-- Whether draws wait is the same, or no draw is waiting. -/
theorem isStalled_dialectsOf {other point : Console}
    (h : point.configuration.dialect.waitForBlank = other.configuration.dialect.waitForBlank ∨
      point.screen.awaitingBlank = false) :
    ((dialectsOf other).console point).isStalled = point.isStalled := by
  have hscreen : ((dialectsOf other).console point).machine.screen = point.machine.screen := rfl
  have hwaits : ((dialectsOf other).console point).configuration.dialect =
      other.configuration.dialect := rfl
  rw [isStalled, isStalled, hscreen, hwaits]
  rcases h with hsame | hidle
  · rw [hsame]
  · have hidle : point.machine.screen.awaitingBlank = false := hidle
    rw [hidle, Bool.and_false, Bool.and_false]

/-- Two consoles that differ in their dialects only give the same answers to the same calls, and
stay the same but for the dialects, as long as the first executes no instruction that consults
a switch in which they differ and, if they differ in whether draws wait, makes no step while
a draw waits. -/
theorem runs_alike_unless_consulted {first second : Console} {calls : List Call}
    (hsame : first.SameButDialect second) (hcalls : ∀ call ∈ calls, call.setsDialect = false)
    (hconsulted : ∀ machine ∈ executions calls first,
      ∀ switch ∈ machine.next.consulted machine.screen.highResolution,
        first.machine.cpu.dialect.isOn switch = second.machine.cpu.dialect.isOn switch)
    (hwaiting : first.configuration.dialect.waitForBlank ≠
        second.configuration.dialect.waitForBlank →
      ∀ point ∈ stepPoints calls first, point.screen.awaitingBlank = false) :
    answers calls second = answers calls first ∧
      (first.performAll calls).SameButDialect (second.performAll calls) := by
  have hhides : ∀ point ∈ stepPoints calls first, (dialectsOf second).HidesAt point := by
    intro point hpoint
    obtain ⟨hconfigured, hexecuted⟩ := Prod.ext_iff.mp (dialects_of_mem_stepPoints hcalls hpoint)
    have hconfigured : point.configuration.dialect = first.configuration.dialect := hconfigured
    have hexecuted : point.machine.cpu.dialect = first.machine.cpu.dialect := hexecuted
    apply Disguise.hidesAt_of_agree
    · apply isStalled_dialectsOf
      rw [hconfigured, Decidable.or_iff_not_imp_left]
      exact fun hdiffer => hwaiting hdiffer point hpoint
    · intro hfree switch hswitch
      rw [hexecuted]
      exact (hconsulted point.machine
        ((mem_executions_iff _ _ _).mpr ⟨point, hpoint, hfree, rfl⟩) switch hswitch).symm
    · intro _ _ source
      rfl
  obtain ⟨hanswers, hstate⟩ := (dialectsOf second).lockstep (.inr hcalls) hhides
  rw [← hsame.eq_console] at hanswers hstate
  refine ⟨hanswers, ?_⟩
  rw [hstate]
  exact sameButDialect_console second _

/-- Draws a row of its own program in the third cycle of a frame, then adds and jumps back. -/
def lateDraw : Console :=
  ((ofImage [0x60, 0x05, 0xA2, 0x00, 0xD0, 0x11, 0x80, 0x04, 0xB2, 0x00]).setDialect
    .superChip).setTickrate 3

/-- Unlike `lateDraw` it shifts the second register, moves the index and does not wait. -/
def lateDrawUnwaiting : Console :=
  lateDraw.setDialect { jumpByTopDigit := true }

def frameThenSteps : List Call :=
  [.press 3, .frame Clock.frame, .step, .step]

/-- The program consults two switches, and the dialects differ in three others. -/
theorem runs_alike_unless_consulted_lateDraw :
    lateDraw.configuration.dialect.waitForBlank = true ∧
      lateDrawUnwaiting.configuration.dialect.waitForBlank = false ∧
      (executions frameThenSteps lateDraw).map Machine.next =
        [.setByte 0 5, .setIndex (Instruction.shortAddress 0x200), .draw 0 1 1,
          .arithmetic .add 0 0, .jumpOffset 2 (Instruction.shortAddress 0x200)] ∧
      answers frameThenSteps lateDrawUnwaiting = answers frameThenSteps lateDraw ∧
      (lateDraw.performAll frameThenSteps).SameButDialect
        (lateDrawUnwaiting.performAll frameThenSteps) := by
  have hconsulted : ∀ machine ∈ executions frameThenSteps lateDraw,
      ∀ switch ∈ machine.next.consulted machine.screen.highResolution,
        lateDraw.machine.cpu.dialect.isOn switch =
          lateDrawUnwaiting.machine.cpu.dialect.isOn switch := by
    decide +kernel
  have hwaiting : ∀ point ∈ stepPoints frameThenSteps lateDraw,
      point.screen.awaitingBlank = false := by
    decide +kernel
  refine ⟨rfl, rfl, by decide +kernel, ?_⟩
  exact runs_alike_unless_consulted (fun _ => rfl) (by decide) hconsulted fun _ => hwaiting

end ChipEight.Console
