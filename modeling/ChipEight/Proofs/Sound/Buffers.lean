import ChipEight.Sound
import Mathlib.Algebra.Ring.Nat
import Mathlib.Data.List.Iterate

/-!
How buffers of sound join. The wave goes on from one buffer to the next where it was, and so it
does not matter in how many buffers the samples are asked for. Of the floating point operations
nothing is used but that they are functions.
-/

namespace ChipEight.Sound

variable (sound : Sound) (sampleRate : Float)

/-- The sound after `count` samples of a wave that is on. -/
def advanceBy (count : Nat) : Sound :=
  (advance · sampleRate)^[count] sound

/-- `count` samples of a wave that is on. -/
def wave (count : Nat) : List Sample :=
  (List.iterate (advance · sampleRate) sound count).map sample

theorem sample_eq_low_or_high : sound.sample = .low ∨ sound.sample = .high := by
  have hends : ∀ isHigh : Bool, (if isHigh then Sample.high else .low) = .low ∨
      (if isHigh then Sample.high else .low) = .high := by decide
  exact hends _

/-- Only the phase moves on. -/
theorem exists_advanceBy_eq (count : Nat) :
    ∃ phase, sound.advanceBy sampleRate count = { sound with phase } := by
  induction count with
  | zero => exact ⟨sound.phase, rfl⟩
  | succ count ih =>
    obtain ⟨phase, hphase⟩ := ih
    have hlast : sound.advanceBy sampleRate (count + 1) =
        (sound.advanceBy sampleRate count).advance sampleRate :=
      Function.iterate_succ_apply' _ count sound
    rw [hlast, hphase]
    exact ⟨_, rfl⟩

theorem isAudible_advanceBy (count : Nat) :
    (sound.advanceBy sampleRate count).isAudible sampleRate = sound.isAudible sampleRate := by
  obtain ⟨phase, hphase⟩ := sound.exists_advanceBy_eq sampleRate count
  rw [hphase]
  rfl

theorem advanceBy_add (first second : Nat) :
    sound.advanceBy sampleRate (first + second) =
      (sound.advanceBy sampleRate first).advanceBy sampleRate second := by
  rw [Nat.add_comm]
  exact Function.iterate_add_apply _ second first sound

theorem wave_add (first second : Nat) :
    sound.wave sampleRate (first + second) =
      sound.wave sampleRate first ++
        (sound.advanceBy sampleRate first).wave sampleRate second := by
  rw [wave, List.iterate_add, List.map_append]
  rfl

theorem length_wave (count : Nat) : (sound.wave sampleRate count).length = count := by
  rw [wave, List.length_map, List.length_iterate]

theorem play_eq (count : Nat) (earlier : List Sample) :
    play sampleRate count sound earlier =
      (earlier.reverse ++ sound.wave sampleRate count, sound.advanceBy sampleRate count) := by
  induction count generalizing sound earlier with
  | zero => exact Prod.ext (List.append_nil _).symm rfl
  | succ count ih =>
    rw [play, ih, List.reverse_cons, List.append_assoc]
    rfl

theorem isAudible_iff :
    sound.isAudible sampleRate = true ↔
      sound.timer.remaining ≠ 0 ∧ sampleRate > 0.0 ∧ sampleRate.isFinite = true := by
  simp only [isAudible, isOn, Timer.isRunning, Bool.and_eq_true, decide_eq_true_eq, bne_iff_ne,
    and_assoc]

section Output

variable {sound sampleRate}

theorem output_of_audible (h : sound.isAudible sampleRate = true) (count : Nat) :
    sound.output count sampleRate =
      (sound.wave sampleRate count, sound.advanceBy sampleRate count) := by
  rw [output, if_pos h, play_eq]
  rfl

theorem output_of_inaudible (h : ¬ sound.isAudible sampleRate = true) (count : Nat) :
    sound.output count sampleRate = (List.replicate count .silent, sound) :=
  if_neg h

end Output

theorem output_add (first second : Nat) :
    sound.output (first + second) sampleRate =
      ((sound.output first sampleRate).1 ++
          ((sound.output first sampleRate).2.output second sampleRate).1,
        ((sound.output first sampleRate).2.output second sampleRate).2) := by
  by_cases h : sound.isAudible sampleRate = true
  · have hlater : (sound.advanceBy sampleRate first).isAudible sampleRate = true := by
      rw [isAudible_advanceBy, h]
    rw [output_of_audible h, output_of_audible h, output_of_audible hlater, wave_add,
      advanceBy_add]
  · rw [output_of_inaudible h, output_of_inaudible h, output_of_inaudible h,
      List.replicate_append_replicate]

/-- Fills buffers one after another. -/
def outputAll : List Nat → Sound → List Sample × Sound
  | [], sound => ([], sound)
  | count :: counts, sound =>
    let (samples, next) := sound.output count sampleRate
    let (rest, last) := outputAll counts next
    (samples ++ rest, last)

/-- However many buffers there are, they hold what one buffer of their total length holds. -/
theorem outputAll_eq (counts : List Nat) :
    outputAll sampleRate counts sound = sound.output counts.sum sampleRate := by
  induction counts generalizing sound with
  | nil =>
    by_cases h : sound.isAudible sampleRate = true
    · exact (output_of_audible h 0).symm
    · exact (output_of_inaudible h 0).symm
  | cons count counts ih =>
    rw [List.sum_cons, output_add, ← ih]
    rfl

/-- Two buffers in a row are one buffer cut in two. Each is filled with the two ends of the wave
while it can be heard, and with silence otherwise; nothing but the phase of a wave that can be heard
moves on. -/
theorem buffers_join (first second : Nat) :
    sound.output (first + second) sampleRate =
        ((sound.output first sampleRate).1 ++
            ((sound.output first sampleRate).2.output second sampleRate).1,
          ((sound.output first sampleRate).2.output second sampleRate).2) ∧
      (sound.output first sampleRate).1.length = first ∧
      (∃ phase, (sound.output first sampleRate).2 = { sound with phase }) ∧
      ((sound.timer.remaining ≠ 0 ∧ sampleRate > 0.0 ∧ sampleRate.isFinite = true) →
        ∀ sample ∈ (sound.output first sampleRate).1, sample = .low ∨ sample = .high) ∧
      (¬ (sound.timer.remaining ≠ 0 ∧ sampleRate > 0.0 ∧ sampleRate.isFinite = true) →
        sound.output first sampleRate = (List.replicate first .silent, sound)) := by
  refine ⟨sound.output_add sampleRate first second, ?_⟩
  rw [← isAudible_iff]
  by_cases h : sound.isAudible sampleRate = true
  · rw [output_of_audible h]
    refine ⟨sound.length_wave sampleRate first, sound.exists_advanceBy_eq sampleRate first, ?_,
      fun hsilent => absurd h hsilent⟩
    intro _ sample hsample
    obtain ⟨moment, -, rfl⟩ := List.mem_map.mp hsample
    exact moment.sample_eq_low_or_high
  · rw [output_of_inaudible h]
    exact ⟨List.length_replicate, ⟨sound.phase, rfl⟩, fun hheard => absurd hheard h, fun _ => rfl⟩

end ChipEight.Sound
