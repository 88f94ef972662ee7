import ChipEight.Proofs.Console.Call
import Mathlib.Data.List.Basic

/-!
When a change of the raster goes unreported. Between two frames that succeed, every call
that changes the raster leaves a mark that the second frame reports, with one exception: a
load puts a dark screen in that bears no mark. So a change is missed exactly when a program
was loaded in between, nothing was displayed after it, and the first screen was not dark in
low resolution.
-/

namespace ChipEight.Console

/-- None of the calls is a frame that succeeds. -/
def NoFrameSucceeds (console : Console) (calls : List Call) : Prop :=
  ∀ earlier nanoseconds later, calls = earlier ++ .frame nanoseconds :: later →
    ∃ reason, ((console.performAll earlier).runFrame nanoseconds).report = .error reason

theorem NoFrameSucceeds.tail {console : Console} {call : Call} {calls : List Call}
    (h : console.NoFrameSucceeds (call :: calls)) :
    (console.perform call).NoFrameSucceeds calls := by
  intro earlier nanoseconds later hcalls
  exact h (call :: earlier) nanoseconds later (by rw [hcalls, List.cons_append])

theorem NoFrameSucceeds.head {console : Console} {nanoseconds : Nat} {calls : List Call}
    (h : console.NoFrameSucceeds (.frame nanoseconds :: calls)) :
    ∃ reason, (console.runFrame nanoseconds).report = .error reason :=
  h [] nanoseconds calls rfl

/-- A call that puts no program in marks every change that it makes. -/
theorem reports_perform {console : Console} {call : Call} (hloads : call.loads = false)
    (hframe : ∀ nanoseconds, call = .frame nanoseconds →
      ∃ reason, (console.runFrame nanoseconds).report = .error reason) :
    Screen.Reports console.screen (console.perform call).screen := by
  cases call with
  | step => exact console.reports_step
  | frame nanoseconds =>
    obtain ⟨reason, hreason⟩ := hframe nanoseconds rfl
    exact reports_runFrame_of_error hreason
  | load image =>
    obtain ⟨-, hsame⟩ | ⟨htrue, -⟩ := console.perform_load_cases image
    · rw [hsame]
      exact .refl _
    · rw [hloads] at htrue
      cases htrue
  | _ => exact .refl _

theorem screen_perform_of_loads (console : Console) {call : Call} (hloads : call.loads = true) :
    (console.perform call).screen = { } := by
  cases call with
  | load image =>
    obtain ⟨hfalse, -⟩ | ⟨-, memory, hloaded⟩ := console.perform_load_cases image
    · rw [hloads] at hfalse
      cases hfalse
    · rw [hloaded]
      rfl
  | _ => cases hloads

/-- The raster of a screen without a mark, given the raster of the frame before. -/
def unmarkedRaster (first : Vector Plane 4 × Bool) (calls : List Call) :
    Vector Plane 4 × Bool :=
  if calls.any Call.loads then Screen.raster { } else first

/-- While no frame succeeds, a screen without a mark shows what was there at the start or
what the last load left. -/
theorem raster_performAll {console : Console} {calls : List Call}
    {first : Vector Plane 4 × Bool} (hcalls : console.NoFrameSucceeds calls)
    (hstart : console.screen.changed = false → console.screen.raster = first)
    (hquiet : (console.performAll calls).screen.changed = false) :
    (console.performAll calls).screen.raster = unmarkedRaster first calls := by
  -- A load puts another raster in the place of the first one.
  induction calls generalizing console first with
  | nil => exact hstart hquiet
  | cons call calls ih =>
    rw [performAll_cons] at hquiet ⊢
    cases hloads : call.loads with
    | true =>
      have hscreen := console.screen_perform_of_loads hloads
      rw [ih hcalls.tail (fun _ => by rw [hscreen]) hquiet]
      simp [unmarkedRaster, hloads]
    | false =>
      have hreports := reports_perform hloads fun nanoseconds hframe => by
        subst hframe
        exact hcalls.head
      have hnext : (console.perform call).screen.changed = false →
          (console.perform call).screen.raster = first := by
        intro h
        obtain ⟨hmark, hraster⟩ := hreports h
        rw [hraster, hstart hmark]
      rw [ih hcalls.tail hnext hquiet]
      simp [unmarkedRaster, hloads]

/-- A frame misses a change of the raster since an earlier moment, such as the return of the
frame before, exactly when nothing was displayed after a load and the load itself changed the
raster. -/
theorem missed_change_iff {first second : Console} {nanoseconds : Nat} {calls : List Call}
    {report : FrameReport} (hcalls : first.NoFrameSucceeds calls)
    (hsecond : (first.performAll calls).runFrame nanoseconds =
      { console := second, report := .ok report }) :
    (report.changed = false ∧ second.screen.raster ≠ first.screen.raster) ↔
      report.changed = false ∧ calls.any Call.loads = true ∧
        first.screen.raster ≠ Screen.raster { } := by
  refine and_congr_right fun hquiet => ?_
  obtain ⟨hmark, hraster⟩ := raster_runFrame_of_ok hsecond hquiet
  rw [hraster, raster_performAll hcalls (fun _ => rfl) hmark, unmarkedRaster]
  split
  · rename_i hloads
    simp only [hloads, true_and]
    exact ne_comm
  · rename_i hloads
    simp [hloads]

theorem noFrameSucceeds_of_no_frame {console : Console} {calls : List Call}
    (h : ∀ nanoseconds, Call.frame nanoseconds ∉ calls) : console.NoFrameSucceeds calls := by
  intro earlier nanoseconds later hcalls
  subst hcalls
  exact absurd (by simp) (h nanoseconds)

/-- A console just after the frame in which it drew a row of its own program. -/
def afterDrawing : Console :=
  (ofImage [0xA2, 0x00, 0xD0, 0x11]).performAll [.setTickrate 2, .frame Clock.frame]

/-- An empty program that is given no cycles. -/
def emptyProgram : List Call :=
  [.load [], .setTickrate 0]

/-- The frame after a load reports no change although it took the drawing away. -/
theorem missed_change_emptyProgram :
    afterDrawing.NoFrameSucceeds emptyProgram ∧
      ((afterDrawing.performAll emptyProgram).runFrame Clock.frame).report =
        .ok { changed := false } ∧
      ((afterDrawing.performAll emptyProgram).runFrame Clock.frame).console.screen.raster ≠
        afterDrawing.screen.raster := by
  have hcalls : afterDrawing.NoFrameSucceeds emptyProgram :=
    noFrameSucceeds_of_no_frame (by simp [emptyProgram])
  have hreport : ((afterDrawing.performAll emptyProgram).runFrame Clock.frame).report =
      .ok { changed := false } := by
    decide +kernel
  have hdrawn : afterDrawing.screen.raster ≠ Screen.raster { } := by
    decide +kernel
  have hframe : (afterDrawing.performAll emptyProgram).runFrame Clock.frame =
      { console := ((afterDrawing.performAll emptyProgram).runFrame Clock.frame).console,
        report := .ok { changed := false } } := by
    rw [← hreport]
  exact ⟨hcalls, hreport, ((missed_change_iff hcalls hframe).mpr ⟨rfl, rfl, hdrawn⟩).2⟩

end ChipEight.Console
