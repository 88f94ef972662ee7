import ChipEight.Proofs.History
import ChipEight.Sound
import Mathlib.Data.List.Induction

/-!
Where in the wave a beep begins. The wave starts over when the timer runs out and when the
sound is reset, but a zero that is stored in the running timer stops the sound with its phase
as it is, and the next beep goes on from there.
-/

namespace ChipEight.Sound

inductive Event where
  | setVoice (voice : Voice)
  | setPitch (pitch : UInt8)
  | loadPattern (memory : Memory) (address : Address)
  | setTimer (value : UInt8)
  | tick
  | output (count : Nat) (sampleRate : Float)
  | reset

def perform (sound : Sound) : Event → Sound
  | .setVoice voice => sound.setVoice voice
  | .setPitch pitch => sound.setPitch pitch
  | .loadPattern memory address => sound.loadPattern memory address
  | .setTimer value => sound.setTimer value
  | .tick => sound.tick
  | .output count sampleRate => (sound.output count sampleRate).2
  | .reset => { }

def performAll (sound : Sound) (events : List Event) : Sound :=
  events.foldl perform sound

/-- The sound is off and its wave is not at the start. -/
def IsStranded (sound : Sound) : Prop :=
  sound.isOn = false ∧ sound.phase ≠ 0.0

/-- The event neither starts the sound nor resets it. -/
def Event.keepsOff : Event → Prop
  | .setTimer value => value = 0
  | .reset => False
  | _ => True

/-- A zero in the timer stopped the sound while its wave was under way, and the sound was
neither started nor reset since. -/
def CutOff (events : List Event) : Prop :=
  ∃ earlier later, events = earlier ++ .setTimer 0 :: later ∧
    ((performAll { } earlier).isOn = true ∧ (performAll { } earlier).phase ≠ 0.0) ∧
    ∀ event ∈ later, event.keepsOff

theorem performAll_concat (sound : Sound) (events : List Event) (event : Event) :
    sound.performAll (events ++ [event]) = (sound.performAll events).perform event := by
  simp only [performAll, List.foldl_append, List.foldl_cons, List.foldl_nil]

theorem isStranded_congr {first second : Sound} (htimer : first.timer = second.timer)
    (hphase : first.phase = second.phase) : first.IsStranded ↔ second.IsStranded := by
  rw [IsStranded, IsStranded, isOn, isOn, htimer, hphase]

theorem timer_setVoice (sound : Sound) (voice : Voice) :
    (sound.setVoice voice).timer = sound.timer := by
  cases voice <;> rfl

theorem phase_setVoice (sound : Sound) (voice : Voice) :
    (sound.setVoice voice).phase = sound.phase := by
  cases voice <;> rfl

theorem timer_play (sampleRate : Float) (count : Nat) (sound : Sound) (earlier : List Sample) :
    (play sampleRate count sound earlier).2.timer = sound.timer := by
  induction count generalizing sound earlier with
  | zero => rfl
  | succ count ih => exact ih (sound.advance sampleRate) _

theorem timer_output (sound : Sound) (count : Nat) (sampleRate : Float) :
    (sound.output count sampleRate).2.timer = sound.timer := by
  rw [output]
  split
  · exact timer_play sampleRate count sound []
  · rfl

theorem isOn_play (sampleRate : Float) (count : Nat) (sound : Sound) (earlier : List Sample) :
    (play sampleRate count sound earlier).2.isOn = sound.isOn :=
  congrArg Timer.isRunning (timer_play sampleRate count sound earlier)

/-- Samples move the phase of a sound that is on, and it stays on. -/
theorem isStranded_output_iff (sound : Sound) (count : Nat) (sampleRate : Float) :
    (sound.output count sampleRate).2.IsStranded ↔ sound.IsStranded := by
  rw [output]
  split
  · rename_i haudible
    have hon : sound.isOn = true := by
      simp only [isAudible, Bool.and_eq_true] at haudible
      exact haudible.1.1
    simp only [IsStranded, isOn_play, hon, Bool.true_eq_false, false_and]
  · rfl

/-- A tick that stops the sound takes the wave back to its start. -/
theorem isStranded_tick_iff (sound : Sound) : sound.tick.IsStranded ↔ sound.IsStranded := by
  by_cases hoff : sound.timer.remaining = 0
  · have hsame : sound.tick = sound := by
      simp [tick, Timer.tickReport, Timer.tick, hoff]
    rw [hsame]
  · have hon : ¬ sound.IsStranded := by
      simp [IsStranded, isOn, Timer.isRunning, hoff]
    refine iff_of_false ?_ hon
    by_cases hlast : sound.timer.remaining = 1
    · simp [IsStranded, tick, Timer.tickReport, hlast]
    · have hmore : sound.timer.remaining - 1 ≠ 0 := by
        intro hzero
        have hone := congrArg (· + 1) hzero
        exact hlast (by simpa using hone)
      simp [IsStranded, isOn, Timer.isRunning, tick, Timer.tickReport, Timer.tick, hoff, hlast,
        hmore]

theorem isStranded_setTimer_iff (sound : Sound) (value : UInt8) :
    (sound.setTimer value).IsStranded ↔ value = 0 ∧ sound.phase ≠ 0.0 := by
  simp [IsStranded, isOn, Timer.isRunning, setTimer]

theorem isStranded_perform_iff (sound : Sound) (event : Event) :
    (sound.perform event).IsStranded ↔
      (sound.IsStranded ∧ event.keepsOff) ∨
        (event = .setTimer 0 ∧ sound.isOn = true ∧ sound.phase ≠ 0.0) := by
  cases event with
  | setVoice voice =>
    have hkept : (sound.setVoice voice).IsStranded ↔ sound.IsStranded :=
      isStranded_congr (sound.timer_setVoice voice) (sound.phase_setVoice voice)
    simp [perform, hkept, Event.keepsOff]
  | setPitch pitch =>
    have hkept : (sound.setPitch pitch).IsStranded ↔ sound.IsStranded :=
      isStranded_congr (timer_setVoice _ .pattern) (phase_setVoice _ .pattern)
    simp [perform, hkept, Event.keepsOff]
  | loadPattern memory address =>
    have hkept : (sound.loadPattern memory address).IsStranded ↔ sound.IsStranded :=
      isStranded_congr (by simp only [loadPattern, timer_setVoice])
        (by simp only [loadPattern, phase_setVoice])
    simp [perform, hkept, Event.keepsOff]
  | setTimer value =>
    simp only [perform, Event.keepsOff, Event.setTimer.injEq]
    rw [isStranded_setTimer_iff, IsStranded]
    cases sound.isOn <;> simp [and_comm]
  | tick => simp [perform, isStranded_tick_iff, Event.keepsOff]
  | output count sampleRate => simp [perform, isStranded_output_iff, Event.keepsOff]
  | reset => simp [perform, IsStranded, Event.keepsOff]

theorem cutOff_concat_iff (events : List Event) (event : Event) :
    CutOff (events ++ [event]) ↔
      (CutOff events ∧ event.keepsOff) ∨
        (event = .setTimer 0 ∧
          (performAll { } events).isOn = true ∧ (performAll { } events).phase ≠ 0.0) := by
  constructor
  · intro h
    obtain ⟨earlier, later, hsplit, hcut, hlater⟩ := h
    rcases History.concat_eq_append_cons_iff.mp hsplit with ⟨rfl, rfl, -⟩ | ⟨rest, rfl, rfl⟩
    · exact Or.inr ⟨rfl, hcut⟩
    · obtain ⟨hrest, hevent⟩ := List.forall_mem_append.mp hlater
      exact Or.inl ⟨⟨earlier, rest, rfl, hcut, hrest⟩, hevent event (by simp)⟩
  · intro h
    rcases h with ⟨⟨earlier, rest, rfl, hcut, hrest⟩, hevent⟩ | ⟨rfl, hcut⟩
    · refine ⟨earlier, rest ++ [event], by simp, hcut, ?_⟩
      exact List.forall_mem_append.mpr ⟨hrest, by simpa using hevent⟩
    · exact ⟨events, [], rfl, hcut, by simp⟩

/-- A new sound is off with its wave at the start unless it was cut off, and a sound that was
cut off is neither. -/
theorem isStranded_performAll_iff (events : List Event) :
    ((performAll { } events).isOn = false ∧ (performAll { } events).phase ≠ 0.0) ↔
      CutOff events := by
  induction events using List.reverseRecOn with
  | nil =>
    constructor
    · intro h
      exact absurd rfl h.2
    · intro h
      obtain ⟨earlier, later, hsplit, -⟩ := h
      simp at hsplit
  | append_singleton events event ih =>
    have hstep := isStranded_perform_iff (performAll { } events) event
    rw [performAll_concat, cutOff_concat_iff, ← ih]
    exact hstep

/-- A beep at four samples to the period of the wave, stopped after three of them by a zero in
the timer. -/
def stoppedBeep : List Event :=
  [.setTimer 5, .output 3 1760.0, .setTimer 0]

/-- The beep that follows begins in the low half of the wave. -/
theorem next_beep_begins_low :
    (performAll { } stoppedBeep).isOn = false ∧ (performAll { } stoppedBeep).phase ≠ 0.0 ∧
      ((performAll { } (stoppedBeep ++ [.setTimer 1])).output 1 1760.0).1 = [.low] := by
  decide +kernel

end ChipEight.Sound
