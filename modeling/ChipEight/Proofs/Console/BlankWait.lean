import ChipEight.Proofs.Console.Happening
import Mathlib.Data.List.Chain

/-!
How long a draw makes the processor wait. The wait ends with the next tick, or with the poll of
the screen at the end of the frame if that comes first, which lets the processor go on in the next
frame. So no instruction comes between a draw and the tick after it unless a frame without a tick
ends there.
-/

namespace ChipEight.Console

/-- Right after a draw comes a tick, so that between two ticks there is at most one draw and
no instruction follows it. -/
def DrawsWait (happenings : List Happening) : Prop :=
  happenings.IsChain fun earlier later => earlier.isDraw = true → later = .ticked

instance (happenings : List Happening) : Decidable (DrawsWait happenings) :=
  inferInstanceAs (Decidable (List.IsChain _ happenings))

/-- A frame and events of keys, as in the normal course of a program. -/
def Call.isPlay : Call → Bool
  | .frame _ | .press _ | .release _ => true
  | _ => false

/-- The frame executes a draw and no tick falls due in it. -/
def DrawsUnticked (console : Console) (nanoseconds : Nat) : Prop :=
  (∃ happening ∈ console.frameHappenings nanoseconds, happening.isDraw = true) ∧
    console.ticksDue nanoseconds = 0

/-- In the calls to come a cycle falls due before a tick does. -/
def CycleFirst (console : Console) : List Call → Prop
  | [] => False
  | .frame nanoseconds :: calls =>
    0 < console.cyclesDue nanoseconds ∨
      (console.ticksDue nanoseconds = 0 ∧
        CycleFirst (console.perform (.frame nanoseconds)) calls)
  | call :: calls => CycleFirst (console.perform call) calls

/-- After a frame that drew and made no tick, a cycle falls due before the next tick. -/
def LeavesStall (console : Console) (calls : List Call) : Prop :=
  ∃ earlier nanoseconds later, calls = earlier ++ .frame nanoseconds :: later ∧
    (console.performAll earlier).DrawsUnticked nanoseconds ∧
      ((console.performAll earlier).perform (.frame nanoseconds)).CycleFirst later

theorem exists_draw_of_isDraw {instruction : Instruction}
    (h : (Happening.executed instruction).isDraw = true) :
    ∃ x y rows, instruction = .draw x y rows := by
  cases instruction with
  | draw x y rows => exact ⟨x, y, rows, rfl⟩
  | _ => simp [Happening.isDraw] at h

theorem cycleHappenings_of_isStalled {console : Console} (h : console.isStalled = true)
    (count : Nat) : cycleHappenings count console = [] := by
  induction count generalizing console with
  | zero => rfl
  | succ count ih =>
    have hspent : console.spendCycle.isStalled = true := h
    rw [cycleHappenings, stepHappenings, step_eq, if_pos hspent, if_pos hspent]
    exact ih hspent

theorem runCycles_of_isStalled {console : Console} (h : console.isStalled = true)
    (count : Nat) : ∃ next, runCycles count console = .done next ∧ next.isStalled = true := by
  induction count generalizing console with
  | zero => exact ⟨console, rfl, h⟩
  | succ count ih =>
    have hspent : console.spendCycle.isStalled = true := h
    rw [runCycles, step_eq, if_pos hspent]
    exact ih hspent

/-- A draw never fails, and it stalls a console that waits for blanks. -/
theorem step_of_draw {console : Console} {x y : Register} {rows : Nibble}
    (hwaits : console.configuration.dialect.waitForBlank = true)
    (hfree : console.isStalled = false) (hdraw : console.machine.next = .draw x y rows) :
    ∃ next, console.step = .done next ∧ next.isStalled = true := by
  obtain ⟨after, hafter⟩ : ∃ after, console.machine.step = .done after := by
    rw [Machine.step_eq, hdraw]
    exact ⟨_, rfl⟩
  have hscreen := console.machine.screen_step
  rw [hafter, hdraw] at hscreen
  refine ⟨{ console with machine := after }, ?_, ?_⟩
  · rw [step_eq, if_neg (by simp [hfree]), hafter]
    rfl
  · have hwaiting : after.screen.awaitingBlank = true := congrArg Screen.awaitingBlank hscreen
    simp [isStalled, hwaits, hwaiting]

theorem waitForBlank_step {console next : Console} (h : console.step = .done next)
    (hwaits : console.configuration.dialect.waitForBlank = true) :
    next.configuration.dialect.waitForBlank = true := by
  have hsetting := console.setting_step
  rw [h] at hsetting
  rw [← hwaits]
  exact congrArg (·.1.dialect.waitForBlank) hsetting

/-- Within the cycles of a frame nothing comes after a draw. -/
theorem drawsWait_cycleHappenings {console : Console}
    (hwaits : console.configuration.dialect.waitForBlank = true) (count : Nat) :
    DrawsWait (cycleHappenings count console) := by
  induction count generalizing console with
  | zero => exact List.isChain_nil
  | succ count ih =>
    cases hstalled : console.isStalled with
    | true =>
      rw [cycleHappenings_of_isStalled hstalled]
      exact List.isChain_nil
    | false =>
      have hspent : console.spendCycle.configuration.dialect.waitForBlank = true := hwaits
      have hfree : console.spendCycle.isStalled = false := hstalled
      rw [cycleHappenings, stepHappenings, if_neg (by simp [hfree]), List.singleton_append]
      refine List.isChain_cons.mpr ⟨?_, ?_⟩
      · intro later hlater hdraw
        obtain ⟨x, y, rows, hnext⟩ := exists_draw_of_isDraw hdraw
        obtain ⟨next, hstep, hstall⟩ := step_of_draw hspent hfree hnext
        -- The draw stalls the console, and the cycles that are left pass without a trace.
        rw [hstep] at hlater
        simp [cycleHappenings_of_isStalled hstall] at hlater
      · cases hstep : console.spendCycle.step with
        | done next => exact ih (waitForBlank_step hstep hwaits)
        | fault reason next => exact List.isChain_nil

/-- A draw stalls the console for the cycles that are left, so that none of them can fail. -/
theorem exists_stalled_of_draw {console : Console} {count : Nat}
    (hwaits : console.configuration.dialect.waitForBlank = true)
    (h : ∃ happening ∈ cycleHappenings count console, happening.isDraw = true) :
    ∃ next, runCycles count console = .done next ∧ next.isStalled = true := by
  induction count generalizing console with
  | zero => simp [cycleHappenings] at h
  | succ count ih =>
    cases hstalled : console.isStalled with
    | true => exact runCycles_of_isStalled hstalled _
    | false =>
      have hspent : console.spendCycle.configuration.dialect.waitForBlank = true := hwaits
      have hfree : console.spendCycle.isStalled = false := hstalled
      obtain ⟨happening, hmem, hdraw⟩ := h
      rw [cycleHappenings, stepHappenings, if_neg (by simp [hfree]), List.singleton_append] at hmem
      rw [runCycles]
      rcases List.mem_cons.mp hmem with hfirst | hmem
      · subst hfirst
        obtain ⟨x, y, rows, hnext⟩ := exists_draw_of_isDraw hdraw
        obtain ⟨next, hstep, hstall⟩ := step_of_draw hspent hfree hnext
        rw [hstep]
        exact runCycles_of_isStalled hstall count
      · cases hstep : console.spendCycle.step with
        | done next =>
          rw [hstep] at hmem
          exact ih (waitForBlank_step hstep hwaits) ⟨happening, hmem, hdraw⟩
        | fault reason next => simp [hstep] at hmem

theorem drawsWait_frameHappenings {console : Console}
    (hwaits : console.configuration.dialect.waitForBlank = true) (nanoseconds : Nat) :
    DrawsWait (console.frameHappenings nanoseconds) := by
  have hearned : (console.earnCycles
      (Clock.seconds nanoseconds)).configuration.dialect.waitForBlank = true := hwaits
  refine List.isChain_append.mpr ⟨drawsWait_cycleHappenings hearned _, ?_, ?_⟩
  · cases console.frameCycles nanoseconds with
    | done next => exact List.isChain_replicate_of_rel _ (fun _ => rfl)
    | fault reason next => exact List.isChain_nil
  · intro earlier _ later hlater _
    exact eq_ticked_of_mem_tickHappenings (List.mem_of_mem_head? hlater)

theorem frameCycles_of_draw {console : Console} {nanoseconds : Nat}
    (hwaits : console.configuration.dialect.waitForBlank = true)
    (h : ∃ happening ∈ console.frameHappenings nanoseconds, happening.isDraw = true) :
    ∃ next, console.frameCycles nanoseconds = .done next := by
  obtain ⟨happening, hmem, hdraw⟩ := h
  rcases List.mem_append.mp hmem with hcycle | htick
  · have hearned : (console.earnCycles
        (Clock.seconds nanoseconds)).configuration.dialect.waitForBlank = true := hwaits
    obtain ⟨next, hdone, -⟩ := exists_stalled_of_draw hearned ⟨happening, hcycle, hdraw⟩
    exact ⟨next, hdone⟩
  · rw [eq_ticked_of_mem_tickHappenings htick] at hdraw
    cases hdraw

theorem frameHappenings_of_done {console next : Console} {nanoseconds : Nat}
    (h : console.frameCycles nanoseconds = .done next) :
    console.frameHappenings nanoseconds =
      cycleHappenings (console.cyclesDue nanoseconds)
          (console.earnCycles (Clock.seconds nanoseconds)) ++
        List.replicate (console.ticksDue nanoseconds) .ticked := by
  have hsetting : next.setting = console.setting := by
    rw [← console.setting_frameCycles nanoseconds, h, Outcome.state]
  rw [frameHappenings, h, tickHappenings, ticksDue_congr hsetting]

theorem isStalled_perform_frame {console next : Console} {nanoseconds : Nat}
    (h : console.frameCycles nanoseconds = .done next) :
    (console.perform (.frame nanoseconds)).isStalled = false := by
  rw [perform, runFrame_eq, h]
  exact next.isStalled_finishFrame _

/-- If no tick follows a draw, the draw is the last of the happenings. -/
theorem getLast?_isDraw {happenings : List Happening} (hwait : DrawsWait happenings)
    (hdraw : ∃ happening ∈ happenings, happening.isDraw = true)
    (hunticked : Happening.ticked ∉ happenings) :
    ∃ last ∈ happenings.getLast?, last.isDraw = true := by
  induction happenings with
  | nil => simp at hdraw
  | cons first rest ih =>
    obtain ⟨hfirst, hrest⟩ := List.isChain_cons.mp hwait
    cases rest with
    | nil => simpa using hdraw
    | cons second rest =>
      rw [List.getLast?_cons_cons]
      refine ih hrest ?_ fun h => hunticked (List.mem_cons_of_mem _ h)
      obtain ⟨happening, hmem, hisDraw⟩ := hdraw
      rcases List.mem_cons.mp hmem with rfl | hmem
      · exact absurd (by simp [hfirst second rfl hisDraw]) hunticked
      · exact ⟨happening, hmem, hisDraw⟩

/-- A frame ends with a draw exactly when it drew and made no tick. -/
theorem getLast?_frameHappenings_iff {console : Console}
    (hwaits : console.configuration.dialect.waitForBlank = true) (nanoseconds : Nat) :
    (∃ last ∈ (console.frameHappenings nanoseconds).getLast?, last.isDraw = true) ↔
      console.DrawsUnticked nanoseconds := by
  constructor
  · intro h
    obtain ⟨last, hlast, hdraw⟩ := h
    have hdraws : ∃ happening ∈ console.frameHappenings nanoseconds, happening.isDraw = true :=
      ⟨last, List.mem_of_mem_getLast? hlast, hdraw⟩
    refine ⟨hdraws, ?_⟩
    by_contra hticks
    obtain ⟨next, hnext⟩ := frameCycles_of_draw hwaits hdraws
    rw [frameHappenings_of_done hnext,
      List.getLast?_append_of_ne_nil _ (by simpa using hticks)] at hlast
    rw [List.eq_of_mem_replicate (List.mem_of_mem_getLast? hlast)] at hdraw
    cases hdraw
  · intro h
    obtain ⟨hdraws, hticks⟩ := h
    obtain ⟨next, hnext⟩ := frameCycles_of_draw hwaits hdraws
    refine getLast?_isDraw (drawsWait_frameHappenings hwaits nanoseconds) hdraws ?_
    rw [frameHappenings_of_done hnext, hticks, List.replicate_zero, List.append_nil]
    exact ticked_not_mem_cycleHappenings _ _

theorem ne_ticked_iff (happening : Happening) :
    happening ≠ .ticked ↔ ∃ instruction, happening = .executed instruction := by
  cases happening <;> simp

/-- Two stretches of happenings fail together only where the first ends with a draw and the
second begins with an instruction. -/
theorem drawsWait_append_iff {earlier later : List Happening} (hearlier : DrawsWait earlier) :
    DrawsWait (earlier ++ later) ↔
      DrawsWait later ∧ ¬ ((∃ last ∈ earlier.getLast?, last.isDraw = true) ∧
        ∃ instruction, later.head? = some (.executed instruction)) := by
  have happend : DrawsWait (earlier ++ later) ↔ DrawsWait earlier ∧ DrawsWait later ∧
      ∀ last ∈ earlier.getLast?, ∀ first ∈ later.head?,
        last.isDraw = true → first = .ticked := List.isChain_append
  rw [happend, and_iff_right hearlier]
  refine and_congr_right fun _ => ?_
  constructor
  · intro hjoin hends
    obtain ⟨⟨last, hlast, hdraw⟩, instruction, hhead⟩ := hends
    have hfirst := hjoin last hlast _ hhead hdraw
    cases hfirst
  · intro hjoin last hlast first hfirst hdraw
    by_contra hne
    obtain ⟨instruction, rfl⟩ := (ne_ticked_iff first).mp hne
    exact hjoin ⟨⟨last, hlast, hdraw⟩, instruction, hfirst⟩

/-- Once the processor may go on, the next thing that falls due is the next that happens. -/
theorem head?_happenings_iff {console : Console} {calls : List Call}
    (hfree : console.isStalled = false) (hcalls : ∀ call ∈ calls, call.isPlay = true) :
    (∃ instruction, (happenings calls console).head? = some (.executed instruction)) ↔
      console.CycleFirst calls := by
  induction calls generalizing console with
  | nil => simp [happenings, CycleFirst]
  | cons call calls ih =>
    obtain ⟨hplay, hrest⟩ := List.forall_mem_cons.mp hcalls
    cases call with
    | frame nanoseconds =>
      rw [happenings, callHappenings, CycleFirst]
      cases hcycles : console.cyclesDue nanoseconds with
      | succ count =>
        have hearned : (console.earnCycles (Clock.seconds nanoseconds)).spendCycle.isStalled =
            false := hfree
        rw [frameHappenings, hcycles, cycleHappenings, stepHappenings, if_neg (by simp [hearned])]
        simp
      | zero =>
        have hdone : console.frameCycles nanoseconds =
            .done (console.earnCycles (Clock.seconds nanoseconds)) := by
          rw [frameCycles, hcycles, runCycles]
        rw [frameHappenings_of_done hdone, hcycles, cycleHappenings, List.nil_append]
        cases hticks : console.ticksDue nanoseconds with
        | succ count => simp [List.replicate_succ]
        | zero => simpa using ih (isStalled_perform_frame hdone) hrest
    | press key => exact ih hfree hrest
    | release key => exact ih hfree hrest
    | _ => cases hplay

theorem leavesStall_cons_iff (console : Console) (call : Call) (calls : List Call) :
    LeavesStall console (call :: calls) ↔
      (∃ nanoseconds, call = .frame nanoseconds ∧ console.DrawsUnticked nanoseconds ∧
        (console.perform call).CycleFirst calls) ∨
      LeavesStall (console.perform call) calls := by
  constructor
  · intro h
    obtain ⟨earlier, nanoseconds, later, hcalls, hdraws, hresumes⟩ := h
    cases earlier with
    | nil =>
      obtain ⟨rfl, rfl⟩ := List.cons.inj hcalls
      exact Or.inl ⟨nanoseconds, rfl, hdraws, hresumes⟩
    | cons first earlier =>
      obtain ⟨rfl, htail⟩ := List.cons.inj hcalls
      exact Or.inr ⟨earlier, nanoseconds, later, htail, hdraws, hresumes⟩
  · intro h
    rcases h with ⟨nanoseconds, rfl, hdraws, hresumes⟩ | ⟨earlier, nanoseconds, later, rfl, hrest⟩
    · exact ⟨[], nanoseconds, calls, rfl, hdraws, hresumes⟩
    · exact ⟨call :: earlier, nanoseconds, later, rfl, hrest⟩

theorem configuration_perform_of_isPlay {console : Console} {call : Call}
    (h : call.isPlay = true) : (console.perform call).configuration = console.configuration := by
  cases call with
  | frame nanoseconds => exact configuration_runFrame console nanoseconds
  | press key => rfl
  | release key => rfl
  | _ => cases h

/-- A frame and what comes after it fail together exactly if the frame drew, made no tick and
the clock has a cycle due before the next tick. -/
theorem drawsWait_frame_append_iff {console : Console} {nanoseconds : Nat} {calls : List Call}
    (hwaits : console.configuration.dialect.waitForBlank = true)
    (hcalls : ∀ call ∈ calls, call.isPlay = true) :
    DrawsWait (console.frameHappenings nanoseconds ++
        happenings calls (console.perform (.frame nanoseconds))) ↔
      DrawsWait (happenings calls (console.perform (.frame nanoseconds))) ∧
        ¬ (console.DrawsUnticked nanoseconds ∧
          (console.perform (.frame nanoseconds)).CycleFirst calls) := by
  rw [drawsWait_append_iff (drawsWait_frameHappenings hwaits nanoseconds),
    getLast?_frameHappenings_iff hwaits]
  refine and_congr_right fun _ => not_congr (and_congr_right fun hunticked => ?_)
  obtain ⟨next, hnext⟩ := frameCycles_of_draw hwaits hunticked.1
  exact head?_happenings_iff (isStalled_perform_frame hnext) hcalls

/-- On a console that waits for blanks, every draw waits for the next tick unless a frame
that drew makes no tick and the clock has a cycle due before the tick comes: the poll at the
end of the frame has let the processor go on. -/
theorem drawsWait_happenings_iff {console : Console} {calls : List Call}
    (hwaits : console.configuration.dialect.waitForBlank = true)
    (hcalls : ∀ call ∈ calls, call.isPlay = true) :
    DrawsWait (happenings calls console) ↔ ¬ LeavesStall console calls := by
  induction calls generalizing console with
  | nil => simp [happenings, DrawsWait, LeavesStall]
  | cons call calls ih =>
    obtain ⟨hplay, hlater⟩ := List.forall_mem_cons.mp hcalls
    have hkept : (console.perform call).configuration.dialect.waitForBlank = true := by
      rw [configuration_perform_of_isPlay hplay, hwaits]
    have hrest := ih hkept hlater
    rw [happenings, leavesStall_cons_iff, not_or, ← hrest]
    cases call with
    | frame nanoseconds =>
      rw [callHappenings, drawsWait_frame_append_iff hwaits hlater, and_comm]
      simp
    | press key => simp [callHappenings]
    | release key => simp [callHappenings]
    | _ => cases hplay

/-- Draws and starts over, two instructions in a frame. -/
def drawLoop : Console :=
  (ofImage [0xD0, 0x11, 0x12, 0x00]).setTickrate 2

/-- Two frames of a tick each. -/
def wholeFrames : List Call :=
  [.frame 16666667, .frame 16666667]

/-- Two frames of half the usual length, of which only the second makes a tick. -/
def halfFrames : List Call :=
  [.frame 8333333, .frame 8333333]

/-- In frames of a tick each the loop draws once between two ticks. -/
theorem drawsWait_wholeFrames :
    drawLoop.configuration.dialect.waitForBlank = true ∧
      (∀ call ∈ wholeFrames, call.isPlay = true) ∧
        happenings wholeFrames drawLoop =
          [.executed (.draw 0 1 1), .ticked, .executed (.jump 0x200), .executed (.draw 0 1 1),
            .ticked] ∧
          ¬ LeavesStall drawLoop wholeFrames := by
  have hcalls : ∀ call ∈ wholeFrames, call.isPlay = true := by simp [wholeFrames, Call.isPlay]
  have hhappenings : happenings wholeFrames drawLoop =
      [.executed (.draw 0 1 1), .ticked, .executed (.jump 0x200), .executed (.draw 0 1 1),
        .ticked] := by
    decide +kernel
  have hwait : DrawsWait (happenings wholeFrames drawLoop) := by
    rw [hhappenings]
    decide
  exact ⟨rfl, hcalls, hhappenings, (drawsWait_happenings_iff rfl hcalls).mp hwait⟩

/-- In frames shorter than a tick the processor goes on right after the frame of a draw. -/
theorem not_drawsWait_halfFrames :
    drawLoop.configuration.dialect.waitForBlank = true ∧
      (∀ call ∈ halfFrames, call.isPlay = true) ∧ LeavesStall drawLoop halfFrames ∧
        ¬ DrawsWait (happenings halfFrames drawLoop) := by
  have hcalls : ∀ call ∈ halfFrames, call.isPlay = true := by simp [halfFrames, Call.isPlay]
  have hdraw : Happening.executed (.draw 0 1 1) ∈ drawLoop.frameHappenings 8333333 := by
    decide +kernel
  have hunticked : drawLoop.ticksDue 8333333 = 0 := by decide +kernel
  have hresumes : 0 < (drawLoop.perform (.frame 8333333)).cyclesDue 8333333 := by
    decide +kernel
  have hleaves : LeavesStall drawLoop halfFrames :=
    ⟨[], 8333333, [.frame 8333333], rfl, ⟨⟨_, hdraw, rfl⟩, hunticked⟩, Or.inl hresumes⟩
  have hhappenings : happenings halfFrames drawLoop =
      [.executed (.draw 0 1 1), .executed (.jump 0x200), .ticked] := by
    decide +kernel
  refine ⟨rfl, hcalls, hleaves, ?_⟩
  rw [hhappenings]
  decide

end ChipEight.Console
