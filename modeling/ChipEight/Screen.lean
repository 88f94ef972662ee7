import ChipEight.Instruction
import ChipEight.Screen.Plane
import ChipEight.Screen.Sprite

/-!
Four planes over one raster. In low resolution the logical screen is 64 by 32 and each of its
pixels covers two by two pixels of the raster. Drawing, clearing and scrolling affect the
selected planes only.
-/

namespace ChipEight

structure Screen where
  planes : Vector Plane 4 := Vector.replicate 4 { }
  highResolution : Bool := false
  selected : BitVec 4 := 1
  /-- Something may have changed since the screen was polled last. -/
  changed : Bool := false
  /-- A draw waits for the next vertical blank. -/
  awaitingBlank : Bool := false
  deriving DecidableEq

namespace Screen

def width (screen : Screen) : Nat :=
  if screen.highResolution then 128 else 64

def height (screen : Screen) : Nat :=
  if screen.highResolution then 64 else 32

/-- Raster pixels along a side of a logical pixel. -/
def scale (screen : Screen) : Nat :=
  if screen.highResolution then 1 else 2

def plane (screen : Screen) (p : Fin 4) : Plane :=
  screen.planes[p]

def isSelected (screen : Screen) (p : Nat) : Bool :=
  screen.selected.getLsbD p

/-- How many of the planes before plane `p` are selected. -/
def selectedBefore (screen : Screen) (p : Nat) : Nat :=
  (List.range p).countP screen.isSelected

def selectedCount (screen : Screen) : Nat :=
  screen.selectedBefore 4

/-- Colour of a raster pixel: bit `p` is set when the pixel is lit in plane `p`. -/
def colour (screen : Screen) (x y : Nat) : Nat :=
  (List.finRange 4).foldl
    (fun colour p => if (screen.plane p).pixel x y then colour + (1 <<< p.val) else colour) 0

/-- Changes every selected plane in the same way. -/
def onSelected (screen : Screen) (change : Plane → Plane) : Screen :=
  { screen with
    planes := Vector.ofFn fun p =>
      if screen.isSelected p then change (screen.plane p) else screen.plane p
    changed := true }

def clear (screen : Screen) : Screen :=
  screen.onSelected fun _ => { }

def setResolution (screen : Screen) (high : Bool) : Screen :=
  { screen with highResolution := high, changed := true }

/-- Chooses the planes for what follows; bits of the mask past the fourth mean nothing. -/
def selectPlanes (screen : Screen) (mask : Nat) : Screen :=
  { screen with selected := BitVec.ofNat 4 mask }

/-- The raster rows of a logical row. -/
def rasterRows (scale y : Nat) : List Nat :=
  (List.range scale).map (y * scale + ·)

/-- Flips the block of raster pixels under a logical pixel and counts it if any of the block
was lit. -/
def flipBlock (scale : Nat) (drawn : Plane × Nat) (pixel : Nat × Nat) : Plane × Nat :=
  let mask := Plane.stretch (pixel.1 * scale) scale
  let rows := rasterRows scale pixel.2
  let hits := if rows.any (drawn.1.meets mask) then drawn.2 + 1 else drawn.2
  (rows.foldl (·.flip mask) drawn.1, hits)

/-- The logical pixels that a sprite flips in plane `p`, one by one. -/
def targets (screen : Screen) (sprite : Sprite) (x y : Nat) (wrap : Bool) (p : Nat) :
    List (Nat × Nat) :=
  (sprite.litPixels (screen.selectedBefore p)).filterMap
    (Sprite.destination screen.width screen.height x y wrap)

/-- A plane after a draw, beside the number of blocks found lit. -/
def drawnPlane (screen : Screen) (sprite : Sprite) (x y : Nat) (wrap : Bool) (p : Fin 4) :
    Plane × Nat :=
  if screen.isSelected p then
    (screen.targets sprite x y wrap p).foldl (flipBlock screen.scale) (screen.plane p, 0)
  else (screen.plane p, 0)

/-- Draws a sprite into the selected planes and counts the logical pixels found lit. -/
def draw (screen : Screen) (sprite : Sprite) (x y : UInt8) (wrap : Bool) : Screen × Nat :=
  let drawn := Vector.ofFn (screen.drawnPlane sprite x.toNat y.toNat wrap)
  ({ screen with planes := drawn.map (·.1), changed := true, awaitingBlank := true },
    drawn.foldl (fun hits plane => hits + plane.2) 0)

/-- Raster pixels for a logical scroll distance. -/
def scrollDistance (screen : Screen) (distance : Nat) (scaled : Bool) : Nat :=
  if scaled then distance * screen.scale else distance

def scrollDown (screen : Screen) (rows : Nat) (scaled : Bool) : Screen :=
  screen.onSelected (·.scrollDown (screen.scrollDistance rows scaled))

def scrollUp (screen : Screen) (rows : Nat) (scaled : Bool) : Screen :=
  screen.onSelected (·.scrollUp (screen.scrollDistance rows scaled))

/-- Logical pixels of a scroll to either side. -/
def sideStep : Nat := 4

def scrollLeft (screen : Screen) (scaled : Bool) : Screen :=
  screen.onSelected (·.scrollLeft (screen.scrollDistance sideStep scaled))

def scrollRight (screen : Screen) (scaled : Bool) : Screen :=
  screen.onSelected (·.scrollRight (screen.scrollDistance sideStep scaled))

def scroll (screen : Screen) (scaled : Bool) : Scroll → Screen
  | .down rows => screen.scrollDown rows.val scaled
  | .up rows => screen.scrollUp rows.val scaled
  | .right => screen.scrollRight scaled
  | .left => screen.scrollLeft scaled

/-- The vertical blank lets a waiting draw go on. -/
def endBlank (screen : Screen) : Screen :=
  { screen with awaitingBlank := false }

/-- Whether something may have changed since the last poll; a new frame begins. -/
def poll (screen : Screen) : Screen × Bool :=
  ({ screen with changed := false, awaitingBlank := false }, screen.changed)

end Screen

end ChipEight
