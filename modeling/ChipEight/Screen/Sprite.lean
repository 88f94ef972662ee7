/-!
Sprites: a bitmap of whole bytes per row, the leftmost pixel of a byte in its most
significant bit, with the data of one plane after that of another. The length of a
plane's data and the position where they begin have 64 bits, and a product that needs more of them
wraps around.
-/

namespace ChipEight

structure Sprite where
  width : Nat
  height : Nat
  bytesPerRow : Nat
  data : List UInt8
  deriving DecidableEq, Repr

namespace Sprite

/-- Bytes that one plane takes. -/
def planeLength (sprite : Sprite) : Nat :=
  sprite.height * sprite.bytesPerRow % UInt64.size

/-- Where the bytes begin for the plane that is drawn after `ordinal` others. -/
def shareStart (sprite : Sprite) (ordinal : Nat) : Nat :=
  ordinal * sprite.planeLength % UInt64.size

/-- The bytes for the plane that is drawn after `ordinal` others, possibly cut short. -/
def share (sprite : Sprite) (ordinal : Nat) : List UInt8 :=
  (sprite.data.drop (sprite.shareStart ordinal)).take sprite.planeLength

/-- The lit pixels of the byte at `position` as column and row. Columns past the width are
not drawn. -/
def litInByte (sprite : Sprite) (byte : UInt8) (position : Nat) : List (Nat × Nat) :=
  (List.range 8).filterMap fun bit =>
    let column := position % sprite.bytesPerRow * 8 + bit
    if column < sprite.width ∧ byte.toBitVec.getMsbD bit then
      some (column, position / sprite.bytesPerRow)
    else none

/-- The lit pixels of a share in the order of its bits. -/
def litPixels (sprite : Sprite) (ordinal : Nat) : List (Nat × Nat) :=
  (sprite.share ordinal).zipIdx.flatMap fun (byte, position) => sprite.litInByte byte position

/-- Where a pixel of a sprite with the given origin falls on a screen of the given size.
A sprite whose origin is off the screen always wraps. -/
def destination (width height : Nat) (x y : Nat) (wrap : Bool) (pixel : Nat × Nat) :
    Option (Nat × Nat) :=
  let column := x % width + pixel.1
  let row := y % height + pixel.2
  if column < width ∧ row < height then some (column, row)
  else if wrap || width ≤ x || height ≤ y then some (column % width, row % height)
  else none

end Sprite

end ChipEight
