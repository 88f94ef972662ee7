import ChipEight.Proofs.Console.BlankWait
import ChipEight.Proofs.Console.Schedule

/-!
What a draw leaves of its frame. On a console that waits for blanks the cycles after a draw pass
without an instruction and change nothing, so that a frame has one draw at most and its ticks
find the machine as the draw left it. No draw waits any longer when the frame is over.
-/

namespace ChipEight.Console

/-- The first cycles of a frame. -/
def firstCycles (console : Console) (nanoseconds count : Nat) : Outcome Console :=
  runCycles count (console.earnCycles (Clock.seconds nanoseconds))

/-- What goes on in the first cycles of a frame. -/
def firstHappenings (console : Console) (nanoseconds count : Nat) : List Happening :=
  cycleHappenings count (console.earnCycles (Clock.seconds nanoseconds))

theorem steps_of_isStalled {console : Console} (h : console.isStalled = true) (count : Nat) :
    steps count console = .done console := by
  induction count with
  | zero => rfl
  | succ count ih =>
    rw [steps, step_eq, if_pos h]
    exact ih

/-- A stalled cycle is charged and leaves all else as it is. -/
theorem runCycles_eq_of_isStalled {console : Console} (h : console.isStalled = true)
    (count : Nat) :
    runCycles count console =
      .done (console.withCycleCredit (Clock.spend count console.cycleCredit)) :=
  runCycles_of_done (steps_of_isStalled h count) console.cycleCredit

/-- Cycles after a run of cycles, unless a fault ends that run. -/
theorem runCycles_add {console next : Console} {ran : Nat}
    (h : runCycles ran console = .done next) (count : Nat) :
    runCycles (ran + count) console = runCycles count next := by
  induction ran generalizing console with
  | zero =>
    cases h
    rw [Nat.zero_add]
  | succ ran ih =>
    rw [runCycles] at h
    rw [Nat.succ_add, runCycles]
    cases hstep : console.spendCycle.step with
    | done mid =>
      rw [hstep] at h
      exact ih h
    | fault reason left =>
      rw [hstep] at h
      cases h

theorem cycleHappenings_add {console next : Console} {ran : Nat}
    (h : runCycles ran console = .done next) (count : Nat) :
    cycleHappenings (ran + count) console =
      cycleHappenings ran console ++ cycleHappenings count next := by
  induction ran generalizing console with
  | zero =>
    cases h
    rw [Nat.zero_add, cycleHappenings, List.nil_append]
  | succ ran ih =>
    rw [runCycles] at h
    rw [Nat.succ_add, cycleHappenings, cycleHappenings, List.append_assoc]
    cases hstep : console.spendCycle.step with
    | done mid =>
      rw [hstep] at h
      exact congrArg _ (ih h)
    | fault reason left =>
      rw [hstep] at h
      cases h

theorem isStalled_eq_awaitingBlank {console : Console}
    (hwaits : console.configuration.dialect.waitForBlank = true) :
    console.isStalled = console.screen.awaitingBlank := by
  rw [isStalled, hwaits, Bool.true_and, screen]

/-- Where every draw waits for a tick and there is none, there is one draw at most. -/
theorem countP_isDraw_le_one {happenings : List Happening} (hwait : DrawsWait happenings)
    (hunticked : Happening.ticked ∉ happenings) : happenings.countP Happening.isDraw ≤ 1 := by
  induction happenings with
  | nil => simp
  | cons first rest ih =>
    obtain ⟨hfirst, hrest⟩ := List.isChain_cons.mp hwait
    have hlater : Happening.ticked ∉ rest := List.not_mem_of_not_mem_cons hunticked
    cases hdraw : first.isDraw with
    | false => simpa [hdraw] using ih hrest hlater
    | true =>
      -- What comes right after the draw would be a tick.
      cases rest with
      | nil => simp [hdraw]
      | cons second rest => exact absurd (by simp [hfirst second rfl hdraw]) hlater

theorem countP_isDraw_frameHappenings {console : Console}
    (hwaits : console.configuration.dialect.waitForBlank = true) (nanoseconds : Nat) :
    (console.frameHappenings nanoseconds).countP Happening.isDraw ≤ 1 := by
  have hearned : (console.earnCycles
      (Clock.seconds nanoseconds)).configuration.dialect.waitForBlank = true := hwaits
  have hticks : (tickHappenings nanoseconds (console.frameCycles nanoseconds)).countP
      Happening.isDraw = 0 := by
    refine List.countP_eq_zero.mpr fun happening hmem => ?_
    rw [eq_ticked_of_mem_tickHappenings hmem]
    exact Bool.false_ne_true
  rw [frameHappenings, List.countP_append, hticks]
  exact countP_isDraw_le_one (drawsWait_cycleHappenings hearned _)
    (ticked_not_mem_cycleHappenings _ _)

/-- A draw was waiting when the frame began, or is among its first instructions. -/
def DrawsWithin (console : Console) (nanoseconds ran : Nat) : Prop :=
  console.screen.awaitingBlank = true ∨
    ∃ happening ∈ console.firstHappenings nanoseconds ran, happening.isDraw = true

/-- After some of its cycles a frame does nothing more before its ticks. -/
structure Idles (console : Console) (nanoseconds ran : Nat) (drawn : Console) : Prop where
  reaches : console.firstCycles nanoseconds ran = .done drawn
  /-- Further cycles are charged, and nothing else is done in them. -/
  cycles : ∀ more, console.firstCycles nanoseconds (ran + more) =
    .done (drawn.withCycleCredit (Clock.spend more drawn.cycleCredit))
  happenings : ∀ more, console.firstHappenings nanoseconds (ran + more) =
    console.firstHappenings nanoseconds ran
  /-- The ticks find the machine as the draw left it. -/
  finishes : ∀ more, console.cyclesDue nanoseconds = ran + more →
    console.runFrame nanoseconds =
      (drawn.withCycleCredit (Clock.spend more drawn.cycleCredit)).finishFrame
        (Clock.seconds nanoseconds)

theorem exists_idles {console : Console} {nanoseconds ran : Nat}
    (hwaits : console.configuration.dialect.waitForBlank = true)
    (hdraws : console.DrawsWithin nanoseconds ran) :
    ∃ drawn, console.Idles nanoseconds ran drawn := by
  have hearned : (console.earnCycles
      (Clock.seconds nanoseconds)).configuration.dialect.waitForBlank = true := hwaits
  obtain ⟨drawn, hreaches, hstalled⟩ : ∃ drawn,
      console.firstCycles nanoseconds ran = .done drawn ∧ drawn.isStalled = true := by
    rcases hdraws with hwaiting | hdraw
    · have hstalled : (console.earnCycles (Clock.seconds nanoseconds)).isStalled = true :=
        (isStalled_eq_awaitingBlank hearned).trans hwaiting
      exact runCycles_of_isStalled hstalled ran
    · exact exists_stalled_of_draw hearned hdraw
  have hcycles : ∀ more, console.firstCycles nanoseconds (ran + more) =
      .done (drawn.withCycleCredit (Clock.spend more drawn.cycleCredit)) := by
    intro more
    rw [firstCycles, runCycles_add hreaches, runCycles_eq_of_isStalled hstalled]
  refine ⟨drawn, hreaches, hcycles, ?_, ?_⟩
  · intro more
    rw [firstHappenings, firstHappenings, cycleHappenings_add hreaches,
      cycleHappenings_of_isStalled hstalled, List.append_nil]
  · intro more hdue
    have hframe : console.frameCycles nanoseconds =
        console.firstCycles nanoseconds (ran + more) := by
      rw [frameCycles, firstCycles, hdue]
    rw [runFrame_eq, hframe, hcycles]

theorem awaitingBlank_runFrame_of_ok {console : Console} {nanoseconds : Nat}
    {report : FrameReport} (h : (console.runFrame nanoseconds).report = .ok report) :
    (console.runFrame nanoseconds).console.screen.awaitingBlank = false := by
  rw [runFrame_eq] at h ⊢
  cases hcycles : console.frameCycles nanoseconds with
  | done next => rfl
  | fault reason left =>
    rw [hcycles] at h
    cases h

/-- On a console that waits for blanks a frame executes one draw at most. Once a draw was
executed, or if one was waiting when the frame began, the further cycles change nothing, and
the ticks find what the draw left. After a frame that succeeds no draw waits. -/
theorem one_draw_a_frame {console : Console}
    (hwaits : console.configuration.dialect.waitForBlank = true) (nanoseconds : Nat) :
    (console.frameHappenings nanoseconds).countP Happening.isDraw ≤ 1 ∧
    (∀ ran, console.DrawsWithin nanoseconds ran →
      ∃ drawn, console.Idles nanoseconds ran drawn) ∧
    ∀ report, (console.runFrame nanoseconds).report = .ok report →
      (console.runFrame nanoseconds).console.screen.awaitingBlank = false :=
  ⟨countP_isDraw_frameHappenings hwaits nanoseconds, fun _ => exists_idles hwaits,
    fun _ => awaitingBlank_runFrame_of_ok⟩

/-- Clears the screen, draws a row of its own program and goes on to high resolution, with four
cycles in a frame. -/
def clearedDraw : Console :=
  (ofImage [0x00, 0xE0, 0xD0, 0x11, 0x00, 0xFF, 0x12, 0x00]).setTickrate 4

/-- The switch of the resolution has to wait for the next frame. -/
theorem one_draw_a_frame_clearedDraw :
    clearedDraw.configuration.dialect.waitForBlank = true ∧
      clearedDraw.cyclesDue Clock.frame = 4 ∧ clearedDraw.DrawsWithin Clock.frame 2 ∧
      (clearedDraw.frameHappenings Clock.frame).countP Happening.isDraw ≤ 1 ∧
      (∃ drawn, clearedDraw.Idles Clock.frame 2 drawn ∧ drawn.machine.cpu.counter = 0x204) ∧
      (clearedDraw.runFrame Clock.frame).report = .ok { changed := true } ∧
      (clearedDraw.runFrame Clock.frame).console.screen.awaitingBlank = false := by
  obtain ⟨hdraws, hidles, hfree⟩ := one_draw_a_frame (rfl :
    clearedDraw.configuration.dialect.waitForBlank = true) Clock.frame
  have hdraw : Happening.executed (.draw 0 1 1) ∈ clearedDraw.firstHappenings Clock.frame 2 := by
    decide +kernel
  have hwithin : clearedDraw.DrawsWithin Clock.frame 2 := .inr ⟨_, hdraw, rfl⟩
  have hcounter : (clearedDraw.firstCycles Clock.frame 2).state.machine.cpu.counter = 0x204 := by
    decide +kernel
  have hreport : (clearedDraw.runFrame Clock.frame).report = .ok { changed := true } := by
    decide +kernel
  obtain ⟨drawn, hdrawn⟩ := hidles 2 hwithin
  rw [hdrawn.reaches] at hcounter
  exact ⟨rfl, by decide +kernel, hwithin, hdraws, ⟨drawn, hdrawn, hcounter⟩, hreport,
    hfree _ hreport⟩

end ChipEight.Console
