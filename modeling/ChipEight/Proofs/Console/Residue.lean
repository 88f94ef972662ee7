import ChipEight.Proofs.Console.ListingText
import ChipEight.Proofs.Console.Lockstep
import ChipEight.Proofs.Machine.Image

/-!
What a load leaves of the time before it: nothing but the state of the random source. Until a
random byte is drawn, nobody can tell two consoles apart into which the same image was loaded.
-/

namespace ChipEight

/-- Any random source is replaced by the given one. -/
def Disguise.ofRandom (random : RandomSource) : Disguise :=
  { random := fun _ => random }

namespace Disguise

theorem keepsDialects_ofRandom (random : RandomSource) : (ofRandom random).KeepsDialects :=
  ⟨rfl, rfl⟩

theorem hidesAt_ofRandom (random : RandomSource) {point : Console}
    (h : point.isStalled = false → point.machine.next.drawsRandom = false) :
    (ofRandom random).HidesAt point :=
  hidesAt_of_keepsDialects _ (keepsDialects_ofRandom random) fun hfree hdraws =>
    absurd (h hfree) (by simp [hdraws])

theorem foretell_ofRandom (random : RandomSource) {count : Nat} {console : Console}
    (h : ∀ entry ∈ Console.foretell count console, entry.instruction.drawsRandom = false) :
    Console.foretell count ((ofRandom random).console console) =
      Console.foretell count console :=
  foretell_console _ (keepsDialects_ofRandom random) fun entry hentry hdraws =>
    absurd (h entry hentry) (by simp [hdraws])

end Disguise

namespace Console

def withRandom (console : Console) (random : RandomSource) : Console :=
  console.onMachine (·.onCpu ({ · with random }))

/-- Equal in every component and in both credits, but for the state of the random source. -/
def SameButRandom (first second : Console) : Prop :=
  ∀ random, first.withRandom random = second.withRandom random

theorem SameButRandom.exists_eq {first second : Console} (h : first.SameButRandom second) :
    ∃ random, second = (Disguise.ofRandom random).console first :=
  ⟨second.machine.cpu.random, (h second.machine.cpu.random).symm⟩

theorem sameButRandom_ofRandom (console : Console) (random : RandomSource) :
    console.SameButRandom ((Disguise.ofRandom random).console console) :=
  fun _ => rfl

/-- Called in the same way, the consoles give the same answers. Then they are the same again,
but for the random source, and foretell the same unless that shows a random byte drawn. -/
structure RunsAlike (calls : List Call) (first second : Console) : Prop where
  answers : answers calls second = answers calls first
  state : (first.performAll calls).SameButRandom (second.performAll calls)
  foretold : ∀ count,
    (∀ entry ∈ (first.performAll calls).peek count, entry.instruction.drawsRandom = false) →
      (second.performAll calls).peek count = (first.performAll calls).peek count

theorem SameButRandom.runsAlike {first second : Console} {calls : List Call}
    (hsame : first.SameButRandom second)
    (hdraws : ∀ machine ∈ executions calls first, machine.next.drawsRandom = false) :
    RunsAlike calls first second := by
  obtain ⟨random, rfl⟩ := hsame.exists_eq
  obtain ⟨hanswers, hstate⟩ := (Disguise.ofRandom random).lockstep
    (.inl (Disguise.keepsDialects_ofRandom random)) fun point hpoint =>
      Disguise.hidesAt_ofRandom random fun hfree =>
        hdraws _ ((mem_executions_iff _ _ _).mpr ⟨point, hpoint, hfree, rfl⟩)
  refine ⟨hanswers, ?_, ?_⟩
  · rw [hstate]
    exact sameButRandom_ofRandom _ random
  · intro count hforetold
    rw [hstate]
    exact Disguise.foretell_ofRandom random hforetold

/-- A console with an image loaded. All of it is new but the random source. -/
def holding (console : Console) (image : List UInt8) (h : image.length ≤ Memory.maxImageLength) :
    Console :=
  configure
    { machine := { cpu := console.machine.cpu.reset, memory := Memory.holding image h }
      configuration := console.configuration } .standard

theorem load_eq_holding (console : Console) {image : List UInt8}
    (h : image.length ≤ Memory.maxImageLength) :
    console.load image = .ok (holding console image h) := by
  rw [load, Memory.load_blank h]
  rfl

theorem load_eq_error {image : List UInt8} (h : Memory.maxImageLength < image.length)
    (console : Console) : console.load image = .error (.tooLarge image.length) := by
  simp [load, Memory.load, Nat.not_le.mpr h]

theorem eq_holding_of_load {console loaded : Console} {image : List UInt8}
    (h : console.load image = .ok loaded) : ∃ hfits, loaded = holding console image hfits := by
  by_cases hfits : image.length ≤ Memory.maxImageLength
  · rw [load_eq_holding console hfits] at h
    exact ⟨hfits, (Except.ok.inj h).symm⟩
  · rw [load_eq_error (Nat.not_le.mp hfits)] at h
    cases h

theorem sameButRandom_holding {image : List UInt8} (h : image.length ≤ Memory.maxImageLength)
    (first second : Console) :
    (holding first image h).SameButRandom (holding second image h) :=
  fun _ => rfl

/-- An image that fits makes any two consoles the same, and the same as a new one with it, but
for the random source, and as long as no random byte is drawn the same calls give the same
answers. An image that does not fit is refused and leaves no trace. -/
theorem load_leaves_no_residue (first second : Console) (seed : UInt64) (image : List UInt8) :
    (image.length ≤ Memory.maxImageLength →
      ∃ loaded other fresh, first.load image = .ok loaded ∧ second.load image = .ok other ∧
        (ofSeed seed).load image = .ok fresh ∧
        loaded.SameButRandom other ∧ loaded.SameButRandom fresh ∧
        ∀ calls, (∀ machine ∈ executions calls loaded, machine.next.drawsRandom = false) →
          RunsAlike calls loaded other ∧ RunsAlike calls loaded fresh) ∧
    (Memory.maxImageLength < image.length →
      first.load image = .error (.tooLarge image.length) ∧
        first.perform (.load image) = first) := by
  constructor
  · intro hfits
    have hsecond := sameButRandom_holding hfits first second
    have hfresh := sameButRandom_holding hfits first (ofSeed seed)
    refine ⟨_, _, _, load_eq_holding first hfits, load_eq_holding second hfits,
      load_eq_holding (ofSeed seed) hfits, hsecond, hfresh, ?_⟩
    intro calls hdraws
    exact ⟨hsecond.runsAlike hdraws, hfresh.runsAlike hdraws⟩
  · intro hlong
    have hrefused := load_eq_error hlong first
    refine ⟨hrefused, ?_⟩
    rw [perform, hrefused]

/-- A console that drew, started the sound and is in the middle of a frame, with a key down and
settings of its own. -/
def worn : Console :=
  (ofImage [0xA2, 0x00, 0xD0, 0x11, 0x60, 0x05, 0xF0, 0x18]).performAll
    [.press 7, .setDialect .xoChip, .setTickrate 3, .frame 25000000]

theorem executions_step_of_pair {console loaded : Console} {high low : UInt8}
    (h : console.load [high, low] = .ok loaded) :
    ∀ machine ∈ executions [.step] loaded,
      machine.next = Instruction.decode (high.toUInt16 <<< 8 ||| low.toUInt16) := by
  intro machine hmem
  obtain ⟨point, hpoint, -, rfl⟩ := (mem_executions_iff _ _ _).mp hmem
  have hfirst : point = loaded := by simpa [stepPoints, callPoints] using hpoint
  have hcounter : loaded.machine.cpu.counter = Memory.programStart := by
    obtain ⟨hfits, rfl⟩ := eq_holding_of_load h
    rfl
  rw [hfirst, Machine.next, hcounter, Memory.readWord_load_pair (Memory.load_console h)]

/-- Setting a register works on the worn console as on a new one, and 65025 bytes do not fit. -/
theorem load_leaves_no_residue_worn :
    (worn.machine.sound.timer.remaining = 4 ∧ worn.machine.keypad.isDown 7 = true) ∧
    (∃ loaded other, worn.load [0x6A, 0x05] = .ok loaded ∧
      (ofSeed 1).load [0x6A, 0x05] = .ok other ∧
      (∀ machine ∈ executions [.step] loaded, machine.next.drawsRandom = false) ∧
      RunsAlike [.step] loaded other) ∧
    worn.load (List.replicate 65025 0) = .error (.tooLarge 65025) := by
  have hpair := (load_leaves_no_residue worn (ofSeed 1) 2 [0x6A, 0x05]).1 (by decide)
  have hlong := (load_leaves_no_residue worn worn 0 (List.replicate 65025 0)).2
    (by rw [List.length_replicate]; decide)
  obtain ⟨loaded, other, fresh, hloaded, hother, -, -, -, halike⟩ := hpair
  have hdraws : ∀ machine ∈ executions [.step] loaded, machine.next.drawsRandom = false := by
    intro machine hmem
    rw [executions_step_of_pair hloaded machine hmem]
    decide
  refine ⟨?_, ⟨loaded, other, hloaded, hother, hdraws, (halike _ hdraws).1⟩, ?_⟩
  · decide +kernel
  · rw [hlong.1, List.length_replicate]

end Console

end ChipEight
