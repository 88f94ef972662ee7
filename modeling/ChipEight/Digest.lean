import ChipEight.Hex

/-!
The SHA-1 digest of a string of bytes, by which program images are known.
-/

namespace ChipEight.Digest

/-- The five words that a digest is made of. -/
structure Chain where
  a : UInt32
  b : UInt32
  c : UInt32
  d : UInt32
  e : UInt32
  deriving DecidableEq, Repr

def start : Chain :=
  ⟨0x67452301, 0xEFCDAB89, 0x98BADCFE, 0x10325476, 0xC3D2E1F0⟩

def Chain.add (x y : Chain) : Chain :=
  ⟨x.a + y.a, x.b + y.b, x.c + y.c, x.d + y.d, x.e + y.e⟩

def rotate (word count : UInt32) : UInt32 :=
  (word <<< count) ||| (word >>> (32 - count))

/-- Function and constant of a round. -/
def mix (round : Nat) (b c d : UInt32) : UInt32 :=
  if round < 20 then ((b &&& c) ||| (~~~b &&& d)) + 0x5A827999
  else if round < 40 then (b ^^^ c ^^^ d) + 0x6ED9EBA1
  else if round < 60 then ((b &&& c) ||| (b &&& d) ||| (c &&& d)) + 0x8F1BBCDC
  else (b ^^^ c ^^^ d) + 0xCA62C1D6

def turn (round : Nat) (word : UInt32) (chain : Chain) : Chain :=
  let a := rotate chain.a 5 + mix round chain.b chain.c chain.d + chain.e + word
  ⟨a, chain.a, rotate chain.b 30, chain.c, chain.d⟩

/-- Puts the word for sixteen rounds later in the place of the word for this round. -/
def refill (window : Vector UInt32 16) (round : Nat) : Vector UInt32 16 :=
  let at_ (offset : Nat) : UInt32 := window[Fin.ofNat 16 (round + offset)]
  window.set (Fin.ofNat 16 round) (rotate (at_ 13 ^^^ at_ 8 ^^^ at_ 2 ^^^ at_ 0) 1)

/-- The last `count` of the eighty rounds over the words of a block. -/
def rounds : Nat → Vector UInt32 16 → Chain → Chain
  | 0, _, chain => chain
  | count + 1, window, chain =>
    let round := 79 - count
    rounds count (refill window round) (turn round window[Fin.ofNat 16 round] chain)

def absorb (chain : Chain) (block : Vector UInt32 16) : Chain :=
  chain.add (rounds 80 block chain)

/-- A set bit, zeros up to eight bytes short of a block, and the length in bits. -/
def padding (length : Nat) : List UInt8 :=
  let lengthByte (k : Nat) : UInt8 := UInt8.ofNat ((8 * length) >>> (8 * (7 - k)))
  [0x80] ++ List.replicate ((119 - length % 64) % 64) 0 ++ (List.range 8).map lengthByte

/-- Big-endian words of four bytes. -/
def words : List UInt8 → List UInt32
  | a :: b :: c :: d :: rest =>
    (a.toUInt32 <<< 24 ||| b.toUInt32 <<< 16 ||| c.toUInt32 <<< 8 ||| d.toUInt32) :: words rest
  | _ => []

/-- Blocks of sixteen words. -/
def blocks (words : Array UInt32) : List (Vector UInt32 16) :=
  (List.range (words.size / 16)).map fun k =>
    Vector.ofFn fun i => words.getD (16 * k + i.val) 0

def wordText (word : UInt32) : String :=
  Hex.lowerBytes
    [(word >>> 24).toUInt8, (word >>> 16).toUInt8, (word >>> 8).toUInt8, word.toUInt8]

def Chain.text (chain : Chain) : String :=
  wordText chain.a ++ wordText chain.b ++ wordText chain.c ++ wordText chain.d ++ wordText chain.e

/-- Forty lower-case digits. -/
def sha1 (message : List UInt8) : String :=
  let padded := words (message ++ padding message.length)
  ((blocks padded.toArray).foldl absorb start).text

end ChipEight.Digest
