import ChipEight.Random.ChaCha

/-!
Reproducible random bytes. A seed determines an endless stream; the source holds the seed's
key and how many bytes were drawn.
-/

namespace ChipEight

structure RandomSource where
  key : Vector UInt32 8
  drawn : Nat := 0
  deriving DecidableEq

namespace RandomSource

/-- One step of the linear congruential generator that spreads a seed over a key. -/
def spread (state : UInt64) : UInt64 :=
  state * 6364136223846793005 + 11634580027462260723

/-- A word from a state of that generator: the high bits, folded and rotated to the right. -/
def spreadWord (state : UInt64) : UInt32 :=
  let folded := (((state >>> 18) ^^^ state) >>> 27).toUInt32
  let count := (state >>> 59).toUInt32
  (folded >>> count) ||| (folded <<< (32 - count))

/-- The state after `count` steps. -/
def spreadFrom (seed : UInt64) : Nat → UInt64
  | 0 => seed
  | count + 1 => spread (spreadFrom seed count)

def keyOfSeed (seed : UInt64) : Vector UInt32 8 :=
  Vector.ofFn fun k => spreadWord (spreadFrom seed (k.val + 1))

def ofSeed (seed : UInt64) : RandomSource :=
  { key := keyOfSeed seed }

/-- A byte of the stream: the low byte of a word, sixteen words to a block. -/
def streamByte (key : Vector UInt32 8) (position : Nat) : UInt8 :=
  ((ChaCha.block key (UInt64.ofNat (position / 16))).get (Fin.ofNat 16 position)).toUInt8

def next (source : RandomSource) : UInt8 × RandomSource :=
  (streamByte source.key source.drawn, { source with drawn := source.drawn + 1 })

end RandomSource

end ChipEight
