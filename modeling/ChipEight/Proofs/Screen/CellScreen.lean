import ChipEight.Proofs.Screen.Operation
import ChipEight.Proofs.Screen.SpriteBits
import Mathlib.Logic.Function.Basic

/-!
A screen of 64 by 32 cells, one bit for each cell and plane, with draws, clears and scrolls
that know nothing of a raster. It takes the operations of a raster screen, so that a course of
one can be compared with a course of the other.
-/

namespace ChipEight

/-- Column and row of a cell. -/
abbrev Cell := Fin 64 × Fin 32

def Cell.pixel (cell : Cell) : Nat × Nat :=
  (cell.1.val, cell.2.val)

abbrev Bitmap := Cell → Bool

structure CellScreen where
  bitmaps : Fin 4 → Bitmap := fun _ _ => false
  selected : BitVec 4 := 1

namespace CellScreen

def onSelected (screen : CellScreen) (change : Bitmap → Bitmap) : CellScreen :=
  { screen with
    bitmaps := fun p =>
      if screen.selected.getLsbD p then change (screen.bitmaps p) else screen.bitmaps p }

def scrollDown (rows : Nat) (bitmap : Bitmap) : Bitmap :=
  fun (x, y) => if rows ≤ y.val then bitmap (x, ⟨y.val - rows, by omega⟩) else false

def scrollUp (rows : Nat) (bitmap : Bitmap) : Bitmap :=
  fun (x, y) => if h : y.val + rows < 32 then bitmap (x, ⟨y.val + rows, h⟩) else false

def scrollLeft (columns : Nat) (bitmap : Bitmap) : Bitmap :=
  fun (x, y) => if h : x.val + columns < 64 then bitmap (⟨x.val + columns, h⟩, y) else false

def scrollRight (columns : Nat) (bitmap : Bitmap) : Bitmap :=
  fun (x, y) => if columns ≤ x.val then bitmap (⟨x.val - columns, by omega⟩, y) else false

/-- The cell on which a bit of a sprite falls, if it is visible. A sprite wraps around if it
is told to or if its origin is off the screen, and is cut off otherwise. -/
def target? (x y : UInt8) (wrap : Bool) (bit : Nat × Nat) : Option Cell :=
  let column := x.toNat % 64 + bit.1
  let row := y.toNat % 32 + bit.2
  if h : column < 64 ∧ row < 32 then some (⟨column, h.1⟩, ⟨row, h.2⟩)
  else if wrap || decide (64 ≤ x.toNat ∨ 32 ≤ y.toNat) then
    some (Fin.ofNat 64 column, Fin.ofNat 32 row)
  else none

/-- Turns a cell over and counts it if it was lit. -/
def toggle (drawn : Bitmap × Nat) (cell : Cell) : Bitmap × Nat :=
  (Function.update drawn.1 cell (!drawn.1 cell), if drawn.1 cell then drawn.2 + 1 else drawn.2)

/-- Sprite data hold one share for each selected plane, in the order of the planes. -/
def ordinal (screen : CellScreen) (p : Fin 4) : Nat :=
  (List.range p).countP screen.selected.getLsbD

def drawnBitmap (screen : CellScreen) (pixels : Nat → List (Nat × Nat)) (x y : UInt8)
    (wrap : Bool) (p : Fin 4) : Bitmap × Nat :=
  if screen.selected.getLsbD p then
    ((pixels (screen.ordinal p)).filterMap (target? x y wrap)).foldl toggle (screen.bitmaps p, 0)
  else (screen.bitmaps p, 0)

/-- Draws the given pixels, those of each share into a plane of its own. -/
def drawPixels (screen : CellScreen) (pixels : Nat → List (Nat × Nat)) (x y : UInt8)
    (wrap : Bool) : CellScreen × Nat :=
  ({ screen with bitmaps := fun p => (screen.drawnBitmap pixels x y wrap p).1 },
    (List.finRange 4).foldl
      (fun hits p => hits + (screen.drawnBitmap pixels x y wrap p).2) 0)

/-- Performs an operation for a given way of reading a sprite. Cells know neither resolutions nor
scrolls by parts of a cell; both pass them by. -/
def performBy (read : Sprite → Nat → List (Nat × Nat)) (screen : CellScreen) :
    Screen.Operation → CellScreen × Option Nat
  | .draw sprite x y wrap =>
    let (drawn, hits) := screen.drawPixels (read sprite) x y wrap
    (drawn, some hits)
  | .clear => (screen.onSelected fun _ _ => false, none)
  | .selectPlanes mask => ({ screen with selected := BitVec.ofNat 4 mask.toNat }, none)
  | .scrollDown rows _ => (screen.onSelected (scrollDown rows.toNat), none)
  | .scrollUp rows _ => (screen.onSelected (scrollUp rows.toNat), none)
  | .scrollLeft _ => (screen.onSelected (scrollLeft 4), none)
  | .scrollRight _ => (screen.onSelected (scrollRight 4), none)
  | .setResolution _ | .endBlank | .poll => (screen, none)

/-- A draw takes the set bits that the data of a sprite hold for a plane. -/
def perform (screen : CellScreen) (operation : Screen.Operation) : CellScreen × Option Nat :=
  screen.performBy Sprite.bitPixels operation

def course (screen : CellScreen) : List Screen.Operation → List (CellScreen × Option Nat)
  | [] => []
  | operation :: operations =>
    let after := screen.perform operation
    after :: after.1.course operations

/-- A cell by plain numbers, dark off the screen. -/
def cellAt (bitmap : Bitmap) (x y : Nat) : Bool :=
  if h : x < 64 ∧ y < 32 then bitmap (⟨x, h.1⟩, ⟨y, h.2⟩) else false

theorem cellAt_pixel (bitmap : Bitmap) (cell : Cell) :
    cellAt bitmap cell.pixel.1 cell.pixel.2 = bitmap cell :=
  dif_pos ⟨cell.1.isLt, cell.2.isLt⟩

theorem cellAt_scrollDown (rows : Nat) (bitmap : Bitmap) (x y : Nat) :
    cellAt (scrollDown rows bitmap) x y =
      (decide (rows ≤ y ∧ y < 32) && cellAt bitmap x (y - rows)) := by
  by_cases hcell : x < 64 ∧ y < 32
  · by_cases hrows : rows ≤ y
    · have hsub : x < 64 ∧ y - rows < 32 := by omega
      simp [cellAt, scrollDown, hcell, hrows, hsub]
    · simp [cellAt, scrollDown, hcell, hrows]
  · by_cases hx : x < 64
    · have hy : ¬ y < 32 := by omega
      simp [cellAt, hy]
    · simp [cellAt, hx]

theorem cellAt_scrollUp (rows : Nat) (bitmap : Bitmap) (x y : Nat) :
    cellAt (scrollUp rows bitmap) x y = cellAt bitmap x (y + rows) := by
  by_cases hx : x < 64
  · by_cases hrows : y + rows < 32
    · have hy : y < 32 := by omega
      simp [cellAt, scrollUp, hx, hy, hrows]
    · simp [cellAt, scrollUp, hrows]
  · simp [cellAt, hx]

theorem cellAt_scrollLeft (columns : Nat) (bitmap : Bitmap) (x y : Nat) :
    cellAt (scrollLeft columns bitmap) x y = cellAt bitmap (x + columns) y := by
  by_cases hy : y < 32
  · by_cases hcolumns : x + columns < 64
    · have hx : x < 64 := by omega
      simp [cellAt, scrollLeft, hx, hy, hcolumns]
    · simp [cellAt, scrollLeft, hcolumns]
  · simp [cellAt, hy]

theorem cellAt_scrollRight (columns : Nat) (bitmap : Bitmap) (x y : Nat) :
    cellAt (scrollRight columns bitmap) x y =
      (decide (columns ≤ x ∧ x < 64) && cellAt bitmap (x - columns) y) := by
  by_cases hcell : x < 64 ∧ y < 32
  · by_cases hcolumns : columns ≤ x
    · have hsub : x - columns < 64 ∧ y < 32 := by omega
      simp [cellAt, scrollRight, hcell, hcolumns, hsub]
    · simp [cellAt, scrollRight, hcell, hcolumns]
  · by_cases hy : y < 32
    · have hx : ¬ x < 64 := by omega
      simp [cellAt, hx]
    · simp [cellAt, hy]

theorem cellAt_toggle (drawn : Bitmap × Nat) (cell : Cell) (x y : Nat) :
    cellAt (toggle drawn cell).1 x y =
      (cellAt drawn.1 x y ^^ decide (x = cell.1.val ∧ y = cell.2.val)) := by
  by_cases hcell : x < 64 ∧ y < 32
  · have hiff : (⟨x, hcell.1⟩, ⟨y, hcell.2⟩) = cell ↔ x = cell.1.val ∧ y = cell.2.val := by
      rw [Prod.ext_iff, Fin.ext_iff, Fin.ext_iff]
    by_cases heq : x = cell.1.val ∧ y = cell.2.val
    · simp [cellAt, toggle, heq]
    · have hother := mt hiff.mp heq
      simp [cellAt, toggle, hcell, hother, heq]
  · have hne : ¬ (x = cell.1.val ∧ y = cell.2.val) := by omega
    simp [cellAt, hcell, hne]

end CellScreen

end ChipEight
