import ChipEight.Console.Setup
import ChipEight.Proofs.Console.DialectIndependence
import ChipEight.Proofs.Console.Residue
import ChipEight.Proofs.Machine.Counter

/-!
What a console keeps in two places agrees, whatever a host does with it: the dialect is in the
settings and in the processor, and the voice of the sound goes with its pitch. A step may change
the pitch and a host may change any setting in the middle of a run.
-/

namespace ChipEight

/-- The pattern has a pitch, and the beep has none. -/
def Sound.IsTuned (sound : Sound) : Prop :=
  sound.voice = .pattern ↔ sound.pitch ≠ 0

namespace Sound

theorem isTuned_setVoice (sound : Sound) (voice : Voice) : (sound.setVoice voice).IsTuned := by
  cases voice with
  | beep => simp [setVoice, IsTuned]
  | pattern =>
    have hdefault : defaultPitch ≠ 0 := by decide
    by_cases hzero : sound.pitch = 0
    · simp [setVoice, IsTuned, hzero, hdefault]
    · simp [setVoice, IsTuned, hzero]

theorem isTuned_congr {first second : Sound} (hvoice : first.voice = second.voice)
    (hpitch : first.pitch = second.pitch) : first.IsTuned ↔ second.IsTuned := by
  rw [IsTuned, IsTuned, hvoice, hpitch]

/-- Ticks and samples move the timer and the phase only. -/
theorem isTuned_tick_iff (sound : Sound) : sound.tick.IsTuned ↔ sound.IsTuned := by
  rw [tick]
  split <;> exact isTuned_congr rfl rfl

theorem isTuned_play_iff (sampleRate : Float) (count : Nat) (sound : Sound)
    (earlier : List Sample) :
    (play sampleRate count sound earlier).2.IsTuned ↔ sound.IsTuned := by
  induction count generalizing sound earlier with
  | zero => rfl
  | succ count ih => exact (ih (sound.advance sampleRate) _).trans (isTuned_congr rfl rfl)

theorem isTuned_output_iff (sound : Sound) (count : Nat) (sampleRate : Float) :
    (sound.output count sampleRate).2.IsTuned ↔ sound.IsTuned := by
  rw [output]
  split
  · exact isTuned_play_iff sampleRate count sound []
  · rfl

end Sound

namespace Memory

theorem imageLength_writeAll (memory : Memory) (address : Address) (values : List UInt8) :
    (memory.writeAll address values).imageLength = memory.imageLength := by
  induction values generalizing memory address with
  | nil => rfl
  | cons value values ih => exact ih (memory.write address value) (address + 1)

end Memory

namespace Machine

theorem isTuned_soundAfter {machine : Machine} (h : machine.sound.IsTuned)
    (instruction : Instruction) : (machine.soundAfter instruction).IsTuned := by
  cases instruction with
  | loadPattern =>
    exact (Sound.isTuned_congr rfl rfl).mp (machine.sound.isTuned_setVoice .pattern)
  | setPitch x => exact Sound.isTuned_setVoice _ .pattern
  | setSound x => exact (Sound.isTuned_congr rfl rfl).mp h
  | _ => exact h

theorem isTuned_step {machine : Machine} (h : machine.sound.IsTuned) :
    machine.step.state.sound.IsTuned := by
  rw [state_step Machine.sound fun _ _ => rfl, sound_execute]
  exact @isTuned_soundAfter machine.fetched h machine.next

theorem imageLength_step (machine : Machine) :
    machine.step.state.memory.imageLength = machine.memory.imageLength := by
  rw [memory_step]
  exact Memory.imageLength_writeAll _ _ _

end Machine

namespace Console

/-- What is kept twice agrees, and what has bounds is within them. -/
structure Consistent (console : Console) : Prop where
  dialect : console.machine.cpu.dialect = console.configuration.dialect
  voice : console.machine.sound.voice = .pattern ↔ console.machine.sound.pitch ≠ 0
  selected : console.screen.selected.toNat < 16
  stack : console.machine.cpu.stack.addresses.length ≤ 256
  imageLength : console.machine.memory.imageLength ≤ Memory.maxImageLength
  memory : console.machine.memory.bytes.toList.length = 65536

/-- Mask, stack and memory are within their bounds by their types. -/
theorem consistent_iff (console : Console) :
    console.Consistent ↔
      console.machine.cpu.dialect = console.configuration.dialect ∧
        console.machine.sound.IsTuned ∧
        console.machine.memory.imageLength ≤ Memory.maxImageLength := by
  constructor
  · intro h
    exact ⟨h.dialect, h.voice, h.imageLength⟩
  · intro h
    obtain ⟨hdialect, hvoice, himage⟩ := h
    exact {
      dialect := hdialect
      voice := hvoice
      selected := console.screen.selected.isLt
      stack := console.machine.cpu.stack.length_le
      imageLength := himage
      memory := Vector.length_toList }

/-- Nothing else of the console matters. -/
theorem Consistent.of_parts {first second : Console} (h : first.Consistent)
    (hdialects : second.dialects = first.dialects)
    (hsound : second.machine.sound = first.machine.sound)
    (hmemory : second.machine.memory = first.machine.memory) : second.Consistent := by
  obtain ⟨hconfigured, hexecuted⟩ := Prod.ext_iff.mp hdialects
  rw [consistent_iff] at h ⊢
  rw [hsound, hmemory]
  exact ⟨hexecuted.trans (h.1.trans hconfigured.symm), h.2⟩

theorem consistent_step {console : Console} (h : console.Consistent) :
    console.step.state.Consistent := by
  rw [consistent_iff] at h ⊢
  obtain ⟨hdialect, hvoice, himage⟩ := h
  rw [step_eq]
  split
  · exact ⟨hdialect, hvoice, himage⟩
  · rw [Outcome.state_map]
    refine ⟨?_, Machine.isTuned_step hvoice, ?_⟩
    · exact console.machine.dialect_step.trans hdialect
    · exact Nat.le_trans (Nat.le_of_eq console.machine.imageLength_step) himage

theorem stable_consistent : Stable Consistent where
  step := consistent_step
  earnCycles _ h := h.of_parts rfl rfl rfl
  spendCycle h := h.of_parts rfl rfl rfl
  earnTicks _ h := h.of_parts rfl rfl rfl
  tick {console} h := by
    rw [consistent_iff] at h ⊢
    exact ⟨h.1, console.machine.sound.isTuned_tick_iff.mpr h.2.1, h.2.2⟩
  poll h := h.of_parts rfl rfl rfl

/-- A configuration brings dialect and voice into line, whatever they were. -/
theorem consistent_configure {console : Console} (configuration : Configuration)
    (h : console.machine.memory.imageLength ≤ Memory.maxImageLength) :
    (console.configure configuration).Consistent :=
  (consistent_iff _).mpr ⟨rfl, Sound.isTuned_setVoice _ _, h⟩

theorem consistent_setDialect {console : Console} (dialect : Dialect) (h : console.Consistent) :
    (console.setDialect dialect).Consistent :=
  (consistent_iff _).mpr ⟨rfl, h.voice, h.imageLength⟩

theorem consistent_setTickrate {console : Console} (tickrate : UInt32) (h : console.Consistent) :
    (console.setTickrate tickrate).Consistent :=
  h.of_parts rfl rfl rfl

theorem consistent_holding (console : Console) {image : List UInt8}
    (h : image.length ≤ Memory.maxImageLength) : (holding console image h).Consistent :=
  consistent_configure .standard h

/-- The step of the run, one case for each call. -/
theorem consistent_perform {console : Console} (h : console.Consistent) (call : Call) :
    (console.perform call).Consistent := by
  cases call with
  | step => exact consistent_step h
  | frame nanoseconds => exact stable_consistent.runFrame nanoseconds h
  | load image =>
    rw [perform]
    cases hloaded : console.load image with
    | ok loaded =>
      obtain ⟨hfits, rfl⟩ := eq_holding_of_load hloaded
      exact consistent_holding console hfits
    | error reason => exact h
  | configure configuration => exact consistent_configure configuration h.imageLength
  | setDialect dialect => exact consistent_setDialect dialect h
  | setTickrate tickrate => exact consistent_setTickrate tickrate h
  | press _ | release _ | latchKeys => exact h.of_parts rfl rfl rfl
  | output count sampleRate =>
    rw [consistent_iff] at h ⊢
    exact ⟨h.1, (Sound.isTuned_output_iff _ count sampleRate).mpr h.2.1, h.2.2⟩

theorem consistent_ofSeed (seed : UInt64) : (ofSeed seed).Consistent :=
  consistent_configure .standard (Nat.zero_le _)

/-- A setting that is left out changes nothing. -/
theorem Consistent.optional {α : Type} {change : Console → α → Console}
    (hchange : ∀ {console : Console} (setting : α), console.Consistent →
      (change console setting).Consistent)
    (setting? : Option α) {console : Console} (h : console.Consistent) :
    (setting?.elim console (change console)).Consistent := by
  cases setting? with
  | none => exact h
  | some setting => exact hchange setting h

theorem consistent_apply (setup : Setup) {console : Console} (h : console.Consistent) :
    (setup.apply console).Consistent := by
  have hconfigured := h.optional
    (fun configuration h => consistent_configure configuration h.imageLength) setup.configuration
  have hdialect := hconfigured.optional (fun dialect => consistent_setDialect dialect) setup.dialect
  have htickrate := hdialect.optional (fun tickrate => consistent_setTickrate tickrate)
    setup.tickrate
  obtain ⟨image, configuration?, dialect?, tickrate?, seed⟩ := setup
  cases configuration? <;> cases dialect? <;> cases tickrate? <;> exact htickrate

theorem consistent_build {setup : Setup} {built : Console} (h : setup.build = .ok built) :
    built.Consistent := by
  unfold Setup.build at h
  split at h
  · cases h
  · split at h
    · cases h
    · next loaded hloaded =>
      cases h
      obtain ⟨hfits, rfl⟩ := eq_holding_of_load hloaded
      exact consistent_apply setup (consistent_holding _ hfits)

/-- What a host can make and bring about. Without a seed, the random source of a console that is
built may be any. -/
inductive Reachable : Console → Prop
  | ofSeed (seed : UInt64) : Reachable (ofSeed seed)
  | build {setup : Setup} {built : Console} (h : setup.build = .ok built) : Reachable built
  | buildUnseeded {setup : Setup} {built : Console} (h : setup.build = .ok built)
      (random : RandomSource) : Reachable (built.withRandom random)
  | perform {console : Console} (h : Reachable console) (call : Call) :
      Reachable (console.perform call)

theorem Reachable.performAll {console : Console} (h : console.Reachable) (calls : List Call) :
    (console.performAll calls).Reachable := by
  induction calls generalizing console with
  | nil => exact h
  | cons call calls ih => exact ih (h.perform call)

/-- In every console that a host can bring about, the dialects agree, the pattern is played
exactly if there is a pitch, and mask, stack, image and memory are within their bounds. -/
theorem reachable_consistent {console : Console} (h : console.Reachable) :
    console.Consistent := by
  induction h with
  | ofSeed seed => exact consistent_ofSeed seed
  | build h => exact consistent_build h
  | buildUnseeded h random => exact (consistent_build h).of_parts rfl rfl rfl
  | perform _ call ih => exact consistent_perform ih call

/-- A program that stores a pitch of zero, under a dialect that was chosen after the load. -/
def zeroPitched : Console :=
  (holding (ofSeed 0) [0xF0, 0x3A] (by decide)).performAll [.setDialect .xoChip, .step]

/-- The pattern is played at its default pitch instead. -/
theorem reachable_consistent_zeroPitched :
    zeroPitched.Reachable ∧ zeroPitched.Consistent ∧
      zeroPitched.machine.cpu.dialect = .xoChip ∧
      zeroPitched.machine.sound.voice = .pattern ∧ zeroPitched.machine.sound.pitch = 64 := by
  have hloaded : (ofSeed 0).perform (.load [0xF0, 0x3A]) =
      holding (ofSeed 0) [0xF0, 0x3A] (by decide) := by
    rw [perform, load_eq_holding]
  have hreachable : zeroPitched.Reachable := by
    have hstart := (Reachable.ofSeed 0).perform (.load [0xF0, 0x3A])
    rw [hloaded] at hstart
    exact hstart.performAll _
  exact ⟨hreachable, reachable_consistent hreachable, by decide +kernel, by decide +kernel,
    by decide +kernel⟩

end Console

end ChipEight
