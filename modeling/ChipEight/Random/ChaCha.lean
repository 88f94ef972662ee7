import ChipEight.Nibble

/-!
The ChaCha block function with twelve rounds: sixteen words from a key of eight words and the
number of the block.
-/

namespace ChipEight.ChaCha

abbrev Word := UInt32

abbrev Block := Vector Word 16

def rotateLeft (word : Word) (count : Word) : Word :=
  (word <<< count) ||| (word >>> (32 - count))

/-- Mixes four words of a block. -/
def quarterRound (block : Block) (a b c d : Fin 16) : Block :=
  let block := block.set a (block[a] + block[b])
  let block := block.set d (rotateLeft (block[d] ^^^ block[a]) 16)
  let block := block.set c (block[c] + block[d])
  let block := block.set b (rotateLeft (block[b] ^^^ block[c]) 12)
  let block := block.set a (block[a] + block[b])
  let block := block.set d (rotateLeft (block[d] ^^^ block[a]) 8)
  let block := block.set c (block[c] + block[d])
  block.set b (rotateLeft (block[b] ^^^ block[c]) 7)

def columnRound (block : Block) : Block :=
  let block := quarterRound block 0 4 8 12
  let block := quarterRound block 1 5 9 13
  let block := quarterRound block 2 6 10 14
  quarterRound block 3 7 11 15

def diagonalRound (block : Block) : Block :=
  let block := quarterRound block 0 5 10 15
  let block := quarterRound block 1 6 11 12
  let block := quarterRound block 2 7 8 13
  quarterRound block 3 4 9 14

def doubleRounds : Nat → Block → Block
  | 0, block => block
  | count + 1, block => doubleRounds count (diagonalRound (columnRound block))

/-- The constant words, the key, the block number in two words, and two zero words. -/
def initial (key : Vector Word 8) (number : UInt64) : Block :=
  #v[0x61707865, 0x3320646e, 0x79622d32, 0x6b206574,
    key[0], key[1], key[2], key[3], key[4], key[5], key[6], key[7],
    number.toUInt32, (number >>> 32).toUInt32, 0, 0]

def block (key : Vector Word 8) (number : UInt64) : Block :=
  let start := initial key number
  (doubleRounds 6 start).zipWith (· + ·) start

end ChipEight.ChaCha
