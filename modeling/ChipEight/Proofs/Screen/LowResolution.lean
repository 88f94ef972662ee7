import ChipEight.Proofs.Screen.CellScreen
import ChipEight.Proofs.Screen.Pixel
import Mathlib.Data.List.Forall2

/-!
In low resolution the raster shows a screen of 64 by 32 cells. As long as scrolls are scaled
and the resolution stays low, every block of two by two raster pixels shows one cell, and
draws count the same hits. The cells follow the data of a sprite wherever they lie; the raster
does as long as its bytes can be counted.
-/

namespace ChipEight

/-- The operation keeps to low resolution and to whole cells. -/
def Screen.Operation.isLow : Screen.Operation → Bool
  | .setResolution _ => false
  | .scrollDown _ scaled | .scrollUp _ scaled | .scrollLeft scaled | .scrollRight scaled => scaled
  | _ => true

/-- Every block of two by two pixels shows one cell. -/
def Plane.Shows (plane : Plane) (bitmap : Bitmap) : Prop :=
  ∀ (cell : Cell) (dx dy : Fin 2),
    plane.pixel (cell.1.val * 2 + dx.val) (cell.2.val * 2 + dy.val) = bitmap cell

def Screen.Shows (screen : Screen) (cells : CellScreen) : Prop :=
  ∀ p : Fin 4, (screen.plane p).Shows (cells.bitmaps p)

open CellScreen

namespace Plane

/-- A plane shows a bitmap if each pixel has the colour of the cell that it lies in. -/
theorem shows_iff (plane : Plane) (bitmap : Bitmap) :
    plane.Shows bitmap ↔ ∀ x y, plane.pixel x y = cellAt bitmap (x / 2) (y / 2) := by
  constructor
  · intro hshows x y
    by_cases hcell : x / 2 < 64 ∧ y / 2 < 32
    · have hpixel := hshows (⟨x / 2, hcell.1⟩, ⟨y / 2, hcell.2⟩)
        ⟨x % 2, Nat.mod_lt _ (by omega)⟩ ⟨y % 2, Nat.mod_lt _ (by omega)⟩
      simp only [Nat.div_add_mod'] at hpixel
      rw [hpixel, cellAt, dif_pos hcell]
    · rw [cellAt, dif_neg hcell]
      by_cases hx : x < 128
      · exact plane.pixel_of_le_top x (by omega)
      · exact plane.pixel_of_le_left y (by omega)
  · intro hpixel cell dx dy
    have hx : (cell.1.val * 2 + dx.val) / 2 = cell.1.val := by omega
    have hy : (cell.2.val * 2 + dy.val) / 2 = cell.2.val := by omega
    rw [hpixel, hx, hy, cellAt, dif_pos ⟨cell.1.isLt, cell.2.isLt⟩]

theorem shows_dark : ({ } : Plane).Shows fun _ => false := by
  intro cell dx dy
  exact pixel_dark _ _

variable {plane : Plane} {bitmap : Bitmap}

theorem Shows.scrollDown (h : plane.Shows bitmap) (rows : Nat) :
    (plane.scrollDown (rows * 2)).Shows (CellScreen.scrollDown rows bitmap) := by
  rw [shows_iff] at h ⊢
  intro x y
  have hsub : (y - rows * 2) / 2 = y / 2 - rows := by omega
  have hrange : (rows * 2 ≤ y ∧ y < 64) ↔ (rows ≤ y / 2 ∧ y / 2 < 32) := by omega
  rw [pixel_scrollDown, cellAt_scrollDown, h, hsub, decide_eq_decide.mpr hrange]

theorem Shows.scrollUp (h : plane.Shows bitmap) (rows : Nat) :
    (plane.scrollUp (rows * 2)).Shows (CellScreen.scrollUp rows bitmap) := by
  rw [shows_iff] at h ⊢
  intro x y
  rw [pixel_scrollUp, cellAt_scrollUp, h, Nat.add_mul_div_right _ _ (by omega)]

theorem Shows.scrollLeft (h : plane.Shows bitmap) (columns : Nat) :
    (plane.scrollLeft (columns * 2)).Shows (CellScreen.scrollLeft columns bitmap) := by
  rw [shows_iff] at h ⊢
  intro x y
  rw [pixel_scrollLeft, cellAt_scrollLeft, h, Nat.add_mul_div_right _ _ (by omega)]

theorem Shows.scrollRight (h : plane.Shows bitmap) (columns : Nat) :
    (plane.scrollRight (columns * 2)).Shows (CellScreen.scrollRight columns bitmap) := by
  rw [shows_iff] at h ⊢
  intro x y
  have hsub : (x - columns * 2) / 2 = x / 2 - columns := by omega
  have hrange : (columns * 2 ≤ x ∧ x < 128) ↔ (columns ≤ x / 2 ∧ x / 2 < 64) := by omega
  rw [pixel_scrollRight, cellAt_scrollRight, h, hsub, decide_eq_decide.mpr hrange]

section Blocks

variable {drawn : Plane × Nat} {cells : Bitmap × Nat}

theorem onRaster_pixel (cell : Cell) : Screen.OnRaster 2 cell.pixel := by
  have hcolumn := cell.1.isLt
  have hrow := cell.2.isLt
  simp only [Screen.OnRaster, Cell.pixel]
  omega

theorem Shows.flipBlock (h : drawn.1.Shows cells.1) (cell : Cell) :
    (Screen.flipBlock 2 drawn cell.pixel).1.Shows (toggle cells cell).1 := by
  rw [shows_iff] at h ⊢
  intro x y
  rw [Screen.pixel_flipBlock (by omega) (onRaster_pixel cell), cellAt_toggle, h]
  rfl

/-- All pixels of a block are lit if one is, so the block is a hit exactly if its cell is. -/
theorem Shows.hits_flipBlock (h : drawn.1.Shows cells.1) (hhits : drawn.2 = cells.2)
    (cell : Cell) : (Screen.flipBlock 2 drawn cell.pixel).2 = (toggle cells cell).2 := by
  classical
  have hlit : (∃ x y, Screen.InBlock 2 cell.pixel x y ∧ drawn.1.pixel x y = true) ↔
      cells.1 cell = true := by
    constructor
    · intro hblock
      obtain ⟨x, y, ⟨hx, hy⟩, hpixel⟩ := hblock
      rw [(shows_iff _ _).mp h, hx, hy, cellAt_pixel] at hpixel
      exact hpixel
    · intro hcell
      refine ⟨cell.1.val * 2, cell.2.val * 2, ⟨?_, ?_⟩, ?_⟩
      · exact Nat.mul_div_cancel _ (by omega)
      · exact Nat.mul_div_cancel _ (by omega)
      · exact (h cell 0 0).trans hcell
  rw [Screen.hits_flipBlock (by omega) (onRaster_pixel cell), if_congr hlit rfl rfl, hhits, toggle]

theorem Shows.foldl_flipBlock (targets : List Cell) (h : drawn.1.Shows cells.1)
    (hhits : drawn.2 = cells.2) :
    ((targets.map Cell.pixel).foldl (Screen.flipBlock 2) drawn).1.Shows
        (targets.foldl toggle cells).1 ∧
      ((targets.map Cell.pixel).foldl (Screen.flipBlock 2) drawn).2 =
        (targets.foldl toggle cells).2 := by
  induction targets generalizing drawn cells with
  | nil => exact ⟨h, hhits⟩
  | cons cell targets ih => exact ih (h.flipBlock cell) (h.hits_flipBlock hhits cell)

end Blocks

end Plane

theorem Sprite.destination_eq_target? (x y : UInt8) (wrap : Bool) (bit : Nat × Nat) :
    Sprite.destination 64 32 x.toNat y.toNat wrap bit =
      (target? x y wrap bit).map Cell.pixel := by
  by_cases hcell : x.toNat % 64 + bit.1 < 64 ∧ y.toNat % 32 + bit.2 < 32
  · rw [destination, if_pos hcell, target?, dif_pos hcell]
    rfl
  · have hoff : (wrap || decide (64 ≤ x.toNat) || decide (32 ≤ y.toNat)) =
        (wrap || decide (64 ≤ x.toNat ∨ 32 ≤ y.toNat)) := by
      rw [Bool.decide_or, Bool.or_assoc]
    rw [destination, if_neg hcell, target?, dif_neg hcell, hoff]
    split
    · rfl
    · rfl

namespace Screen

/-- Raster and cells agree on all that later operations depend on. -/
structure Simulates (screen : Screen) (cells : CellScreen) : Prop where
  low : screen.highResolution = false
  selected : screen.selected = cells.selected
  shows : screen.Shows cells

namespace Simulates

variable {screen : Screen} {cells : CellScreen}

theorem initial : ({ } : Screen).Simulates { } where
  low := rfl
  selected := rfl
  shows := by
    intro p
    simpa [plane] using Plane.shows_dark

theorem width (h : screen.Simulates cells) : screen.width = 64 := by
  rw [Screen.width, h.low]
  rfl

theorem height (h : screen.Simulates cells) : screen.height = 32 := by
  rw [Screen.height, h.low]
  rfl

theorem scale (h : screen.Simulates cells) : screen.scale = 2 := by
  rw [Screen.scale, h.low]
  rfl

theorem isSelected (h : screen.Simulates cells) (p : Nat) :
    screen.isSelected p = cells.selected.getLsbD p := by
  rw [Screen.isSelected, h.selected]

theorem selectedBefore (h : screen.Simulates cells) (p : Fin 4) :
    screen.selectedBefore p = cells.ordinal p := by
  have hsame : screen.isSelected = cells.selected.getLsbD := funext h.isSelected
  rw [Screen.selectedBefore, hsame, ordinal]

theorem scrollDistance (h : screen.Simulates cells) (distance : Nat) :
    screen.scrollDistance distance true = distance * 2 := by
  rw [Screen.scrollDistance, if_pos rfl, h.scale]

theorem targets (h : screen.Simulates cells) (sprite : Sprite) (x y : UInt8) (wrap : Bool)
    (p : Fin 4) :
    screen.targets sprite x.toNat y.toNat wrap p =
      ((sprite.litPixels (cells.ordinal p)).filterMap (target? x y wrap)).map Cell.pixel := by
  have hdestination : Sprite.destination 64 32 x.toNat y.toNat wrap =
      fun bit => (target? x y wrap bit).map Cell.pixel :=
    funext (Sprite.destination_eq_target? x y wrap)
  rw [Screen.targets, h.width, h.height, hdestination, h.selectedBefore, List.map_filterMap]

theorem drawnPlane (h : screen.Simulates cells) (sprite : Sprite) (x y : UInt8) (wrap : Bool)
    (p : Fin 4) :
    (screen.drawnPlane sprite x.toNat y.toNat wrap p).1.Shows
        (cells.drawnBitmap sprite.litPixels x y wrap p).1 ∧
      (screen.drawnPlane sprite x.toNat y.toNat wrap p).2 =
        (cells.drawnBitmap sprite.litPixels x y wrap p).2 := by
  rw [Screen.drawnPlane, CellScreen.drawnBitmap, h.isSelected, h.targets, h.scale]
  split
  · exact Plane.Shows.foldl_flipBlock _ (h.shows p) rfl
  · exact ⟨h.shows p, rfl⟩

theorem draw (h : screen.Simulates cells) (sprite : Sprite) (x y : UInt8) (wrap : Bool) :
    (screen.draw sprite x y wrap).1.Simulates (cells.drawPixels sprite.litPixels x y wrap).1 where
  low := h.low
  selected := h.selected
  shows := by
    intro p
    rw [plane_draw]
    exact (h.drawnPlane sprite x y wrap p).1

theorem hits_draw (h : screen.Simulates cells) (sprite : Sprite) (x y : UInt8) (wrap : Bool) :
    (screen.draw sprite x y wrap).2 = (cells.drawPixels sprite.litPixels x y wrap).2 := by
  have hhits : ∀ p : Fin 4, (screen.drawnPlane sprite x.toNat y.toNat wrap p).2 =
      (cells.drawnBitmap sprite.litPixels x y wrap p).2 :=
    fun p => (h.drawnPlane sprite x y wrap p).2
  simp only [Screen.hits_draw, CellScreen.drawPixels, hhits]

theorem onSelected (h : screen.Simulates cells) {change : Plane → Plane}
    {move : Bitmap → Bitmap}
    (hchange : ∀ plane bitmap, plane.Shows bitmap → (change plane).Shows (move bitmap)) :
    (screen.onSelected change).Simulates (cells.onSelected move) where
  low := h.low
  selected := h.selected
  shows := by
    intro p
    rw [plane_onSelected, h.isSelected]
    unfold CellScreen.onSelected
    by_cases hselected : cells.selected.getLsbD p = true
    · simp only [hselected, if_true]
      exact hchange _ _ (h.shows p)
    · simp only [hselected]
      exact h.shows p

theorem scrollDown (h : screen.Simulates cells) (rows : Nat) :
    (screen.scrollDown rows true).Simulates (cells.onSelected (CellScreen.scrollDown rows)) := by
  rw [Screen.scrollDown, h.scrollDistance]
  exact h.onSelected fun _ _ hshows => hshows.scrollDown rows

theorem scrollUp (h : screen.Simulates cells) (rows : Nat) :
    (screen.scrollUp rows true).Simulates (cells.onSelected (CellScreen.scrollUp rows)) := by
  rw [Screen.scrollUp, h.scrollDistance]
  exact h.onSelected fun _ _ hshows => hshows.scrollUp rows

theorem scrollLeft (h : screen.Simulates cells) :
    (screen.scrollLeft true).Simulates (cells.onSelected (CellScreen.scrollLeft 4)) := by
  rw [Screen.scrollLeft, h.scrollDistance]
  exact h.onSelected fun _ _ hshows => hshows.scrollLeft sideStep

theorem scrollRight (h : screen.Simulates cells) :
    (screen.scrollRight true).Simulates (cells.onSelected (CellScreen.scrollRight 4)) := by
  rw [Screen.scrollRight, h.scrollDistance]
  exact h.onSelected fun _ _ hshows => hshows.scrollRight sideStep

/-- The step of the simulation, one case for each operation. The cells read a sprite as the
screen does. -/
theorem performBy (h : screen.Simulates cells) (operation : Operation)
    (hlow : operation.isLow = true) :
    (screen.perform operation).1.Simulates (cells.performBy Sprite.litPixels operation).1 ∧
      (screen.perform operation).2 = (cells.performBy Sprite.litPixels operation).2 := by
  cases operation with
  | draw sprite x y wrap =>
    exact ⟨h.draw sprite x y wrap, congrArg some (h.hits_draw sprite x y wrap)⟩
  | clear => exact ⟨h.onSelected fun _ _ _ => Plane.shows_dark, rfl⟩
  | setResolution high => cases hlow
  | selectPlanes mask => exact ⟨⟨h.low, rfl, h.shows⟩, rfl⟩
  | scrollDown rows scaled =>
    obtain rfl : scaled = true := hlow
    exact ⟨h.scrollDown rows.toNat, rfl⟩
  | scrollUp rows scaled =>
    obtain rfl : scaled = true := hlow
    exact ⟨h.scrollUp rows.toNat, rfl⟩
  | scrollLeft scaled =>
    obtain rfl : scaled = true := hlow
    exact ⟨h.scrollLeft, rfl⟩
  | scrollRight scaled =>
    obtain rfl : scaled = true := hlow
    exact ⟨h.scrollRight, rfl⟩
  | endBlank => exact ⟨⟨h.low, h.selected, h.shows⟩, rfl⟩
  | poll => exact ⟨⟨h.low, h.selected, h.shows⟩, rfl⟩

/-- The data of a sprite that can be dealt out are read in full. -/
theorem drawPixels_litPixels (h : screen.Simulates cells) {sprite : Sprite}
    (hdeals : screen.Deals sprite) (x y : UInt8) (wrap : Bool) :
    cells.drawPixels sprite.litPixels x y wrap = cells.drawPixels sprite.bitPixels x y wrap := by
  have hbitmap : ∀ p : Fin 4, cells.drawnBitmap sprite.litPixels x y wrap p =
      cells.drawnBitmap sprite.bitPixels x y wrap p := by
    intro p
    unfold CellScreen.drawnBitmap
    split
    · next hselected =>
      have hfits : sprite.Fits (cells.ordinal p) := by
        rw [← h.selectedBefore]
        apply hdeals
        rw [h.isSelected, hselected]
      rw [hfits.litPixels_eq_bitPixels]
    · rfl
  simp only [CellScreen.drawPixels, hbitmap]

theorem perform (h : screen.Simulates cells) (operation : Operation)
    (hlow : operation.isLow = true) (hdealt : operation.IsDealt screen) :
    (screen.perform operation).1.Simulates (cells.perform operation).1 ∧
      (screen.perform operation).2 = (cells.perform operation).2 := by
  have hread : cells.perform operation = cells.performBy Sprite.litPixels operation := by
    cases operation with
    | draw sprite x y wrap =>
      simp only [CellScreen.perform, CellScreen.performBy, h.drawPixels_litPixels hdealt x y wrap]
    | _ => rfl
  rw [hread]
  exact h.performBy operation hlow

theorem course (h : screen.Simulates cells) (operations : List Operation)
    (hlow : ∀ operation ∈ operations, operation.isLow = true)
    (hdealt : screen.AllDealt operations) :
    List.Forall₂ (fun raster reference => raster.1.Simulates reference.1 ∧
        raster.2 = reference.2)
      (screen.course operations) (cells.course operations) := by
  induction operations generalizing screen cells with
  | nil => exact .nil
  | cons operation operations ih =>
    obtain ⟨hfirst, hrest⟩ := List.forall_mem_cons.mp hlow
    obtain ⟨hnow, hlater⟩ := hdealt
    have hafter := h.perform operation hfirst hnow
    exact .cons hafter (ih hafter.1 hrest hlater)

end Simulates

/-- Two draws that overlap in a corner of the screen, the second one wrapping around, and a
third one in two planes that meets what the scrolls have left. -/
def cornerDraws : List Operation :=
  [.draw ⟨8, 2, 1, [0xFF, 0x81]⟩ 60 30 false, .draw ⟨8, 2, 1, [0xFF, 0xFF]⟩ 60 31 true,
    .scrollDown 1 true, .scrollLeft true, .poll, .selectPlanes 3,
    .draw ⟨8, 1, 1, [0xF0, 0x0F]⟩ 56 31 false]

end Screen

end ChipEight
