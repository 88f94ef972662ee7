import ChipEight.Memory
import ChipEight.Timer

/-!
The sound generator. While its timer runs it plays either a square wave of fixed pitch or a
pattern of 128 bits at a programmable rate; otherwise it is silent. Samples are made on
demand, and the phase goes on from one request to the next.
-/

namespace ChipEight

/-- What the generator plays. -/
inductive Voice where
  | beep
  | pattern
  deriving DecidableEq, Repr

inductive Sample where
  | low
  | silent
  | high
  deriving DecidableEq, Repr

structure Sound where
  pattern : Vector UInt8 16 := Vector.replicate 16 0
  pitch : UInt8 := 0
  timer : Timer := { }
  /-- Position in the wave: below two for the beep, below 128 for the pattern. -/
  phase : Float := 0.0
  voice : Voice := .beep

namespace Sound

/-- Periods of the beep in a second. -/
def beepRate : Float := 440.0

def defaultPitch : UInt8 := 64

/-- Pattern bits in a second: 4000 at the default pitch, doubled every 48 steps up. -/
def patternRate (pitch : UInt8) : Float :=
  4000.0 * Float.pow 2.0 ((pitch.toFloat - 64.0) / 48.0)

/-- The pattern needs a pitch, and the beep has none. -/
def setVoice (sound : Sound) (voice : Voice) : Sound :=
  match voice with
  | .pattern =>
    { sound with voice, pitch := if sound.pitch = 0 then defaultPitch else sound.pitch }
  | .beep => { sound with voice, pitch := 0 }

def setPitch (sound : Sound) (pitch : UInt8) : Sound :=
  { sound with pitch }.setVoice .pattern

/-- Copies sixteen bytes from `address` on. -/
def loadPattern (sound : Sound) (memory : Memory) (address : Address) : Sound :=
  { sound.setVoice .pattern with
    pattern := Vector.ofFn fun k => memory.read (address + UInt16.ofNat k.val) }

def setTimer (sound : Sound) (value : UInt8) : Sound :=
  { sound with timer := { remaining := value } }

def isOn (sound : Sound) : Bool :=
  sound.timer.isRunning

/-- The wave starts over when the timer runs out. -/
def tick (sound : Sound) : Sound :=
  match sound.timer.tickReport with
  | .finished => { sound with timer := sound.timer.tick, phase := 0.0 }
  | _ => { sound with timer := sound.timer.tick }

theorem tick_eq (sound : Sound) :
    sound.tick =
      { sound with
        timer := sound.timer.tick
        phase := if sound.timer.remaining = 1 then 0.0 else sound.phase } := by
  unfold tick Timer.tickReport
  by_cases hidle : sound.timer.remaining = 0
  · have hlast : ¬ sound.timer.remaining = 1 := by rw [hidle]; decide
    rw [if_pos hidle, if_neg hlast]
  · by_cases hlast : sound.timer.remaining = 1
    · rw [if_neg hidle, if_pos hlast, if_pos hlast]
    · rw [if_neg hidle, if_neg hlast, if_neg hlast]

/-- The remainder of a phase that is not negative. Past 2 ^ 53 turns every finite phase is a
whole number of turns; an infinite one leaves no number. -/
def wrapPhase (turn phase : Float) : Float :=
  let turns := phase / turn
  if turns < 9007199254740992.0 then phase - turns.toUInt64.toFloat * turn
  else phase - phase

/-- Phase of one turn of the wave. -/
def turn : Voice → Float
  | .beep => 2.0
  | .pattern => 128.0

/-- How far the phase moves from one sample to the next. -/
def phaseStep (sound : Sound) (sampleRate : Float) : Float :=
  match sound.voice with
  | .beep => 2.0 * beepRate / sampleRate
  | .pattern => patternRate sound.pitch / sampleRate

/-- Bit of the pattern, from the most significant bit of the first byte. -/
def patternBit (sound : Sound) (position : Fin 128) : Bool :=
  sound.pattern[position.val / 8].toBitVec.getMsbD (position.val % 8)

/-- The sample at the present phase. -/
def sample (sound : Sound) : Sample :=
  let isHigh := match sound.voice with
    | .beep => decide (sound.phase < 1.0)
    | .pattern => sound.patternBit (Fin.ofNat 128 sound.phase.toUInt64.toNat)
  if isHigh then .high else .low

def advance (sound : Sound) (sampleRate : Float) : Sound :=
  { sound with phase := wrapPhase (turn sound.voice) (sound.phase + sound.phaseStep sampleRate) }

/-- Samples come at a positive finite rate only. -/
def isAudible (sound : Sound) (sampleRate : Float) : Bool :=
  sound.isOn && sampleRate > 0.0 && sampleRate.isFinite

/-- The next `count` samples of a wave that is on, after the `earlier` ones, latest first. -/
def play (sampleRate : Float) : Nat → Sound → List Sample → List Sample × Sound
  | 0, sound, earlier => (earlier.reverse, sound)
  | count + 1, sound, earlier =>
    play sampleRate count (sound.advance sampleRate) (sound.sample :: earlier)

/-- Fills a buffer of `count` samples. -/
def output (sound : Sound) (count : Nat) (sampleRate : Float) : List Sample × Sound :=
  if sound.isAudible sampleRate then play sampleRate count sound []
  else (List.replicate count .silent, sound)

end Sound

end ChipEight
