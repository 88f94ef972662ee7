import ChipEight.Screen
import Mathlib.Data.List.Nodup
import Mathlib.Tactic.ByContra

/-!
Planes and screens pixel by pixel: where the pixels come from in a scroll, and which pixels
a block covers that a draw flips. What lies off the raster is dark before and after.
-/

namespace ChipEight

namespace Plane

theorem pixel_of_le_left (plane : Plane) {x : Nat} (y : Nat) (h : 128 ≤ x) :
    plane.pixel x y = false := by
  rw [pixel]
  split
  · exact BitVec.getMsbD_of_ge _ _ h
  · rfl

theorem pixel_of_le_top (plane : Plane) (x : Nat) {y : Nat} (h : 64 ≤ y) :
    plane.pixel x y = false := by
  rw [pixel, dif_neg (by omega)]

theorem pixel_dark (x y : Nat) : ({ } : Plane).pixel x y = false := by
  rw [pixel]
  split
  · simp
  · rfl

theorem pixel_scrollDown (plane : Plane) (distance x y : Nat) :
    (plane.scrollDown distance).pixel x y =
      (decide (distance ≤ y ∧ y < 64) && plane.pixel x (y - distance)) := by
  by_cases hy : y < 64
  · by_cases hd : distance ≤ y
    · have hsub : y - distance < 64 := by omega
      simp only [pixel, scrollDown, hy, hd, hsub, dite_true, Vector.getElem_ofFn, and_self,
        decide_true, Bool.true_and]
      rfl
    · simp [pixel, scrollDown, hy, hd]
  · simp [pixel, hy]

theorem pixel_scrollUp (plane : Plane) (distance x y : Nat) :
    (plane.scrollUp distance).pixel x y = plane.pixel x (y + distance) := by
  by_cases hy : y + distance < 64
  · have hlt : y < 64 := by omega
    simp [pixel, scrollUp, hy, hlt]
  · rw [pixel_of_le_top plane x (by omega)]
    by_cases hlt : y < 64
    · simp [pixel, scrollUp, hy, hlt]
    · rw [pixel_of_le_top _ x (by omega)]

theorem pixel_scrollLeft (plane : Plane) (distance x y : Nat) :
    (plane.scrollLeft distance).pixel x y = plane.pixel (x + distance) y := by
  by_cases hy : y < 64
  · simp [pixel, scrollLeft, hy]
  · simp [pixel, hy]

theorem pixel_scrollRight (plane : Plane) (distance x y : Nat) :
    (plane.scrollRight distance).pixel x y =
      (decide (distance ≤ x ∧ x < 128) && plane.pixel (x - distance) y) := by
  by_cases hy : y < 64
  · by_cases hd : distance ≤ x
    · by_cases hx : x < 128
      · simp [pixel, scrollRight, hy, BitVec.getMsbD_ushiftRight, hd, hx]
      · rw [pixel_of_le_left _ y (by omega)]
        simp [hx]
    · simp [pixel, scrollRight, hy, BitVec.getMsbD_ushiftRight, hd]
  · simp [pixel, hy]

theorem meets_iff (plane : Plane) (mask : BitVec 128) (y : Nat) :
    plane.meets mask y = true ↔ ∃ x, mask.getMsbD x = true ∧ plane.pixel x y = true := by
  by_cases hy : y < 64
  · simp only [meets, pixel, hy, dite_true, decide_eq_true_eq]
    constructor
    · intro hne
      by_contra hnone
      refine hne (BitVec.eq_of_getMsbD_eq fun x _ => ?_)
      by_cases hmask : mask.getMsbD x = true
      · have hdark : ¬ (plane.rows[y].getMsbD x = true) := fun h => hnone ⟨x, hmask, h⟩
        simp [hdark]
      · simp [hmask]
    · intro h hzero
      obtain ⟨x, hmask, hlit⟩ := h
      have hdark := congrArg (·.getMsbD x) hzero
      simp [hmask, hlit] at hdark
  · simp [meets, pixel, hy]

/-- Flipping a mask in several rows, each at most once. -/
theorem pixel_foldl_flip (plane : Plane) (mask : BitVec 128) (rows : List Nat) (x y : Nat)
    (hrows : ∀ row ∈ rows, row < 64) (hnodup : rows.Nodup) :
    (rows.foldl (·.flip mask) plane).pixel x y =
      (plane.pixel x y ^^ (decide (y ∈ rows) && mask.getMsbD x)) := by
  induction rows generalizing plane with
  | nil => simp
  | cons row rows ih =>
    obtain ⟨hrow, hrest⟩ := List.nodup_cons.mp hnodup
    rw [List.foldl_cons, ih _ (fun r hr => hrows r (List.mem_cons_of_mem _ hr)) hrest,
      pixel_flip _ _ _ _ _ (hrows row (by simp))]
    by_cases hy : y = row
    · subst hy
      simp [hrow]
    · simp [hy]

end Plane

namespace Screen

/-- The raster pixel lies in the block under a logical pixel. -/
def InBlock (scale : Nat) (pixel : Nat × Nat) (x y : Nat) : Prop :=
  x / scale = pixel.1 ∧ y / scale = pixel.2

instance (scale : Nat) (pixel : Nat × Nat) (x y : Nat) : Decidable (InBlock scale pixel x y) :=
  inferInstanceAs (Decidable (_ ∧ _))

theorem div_eq_iff_block {scale : Nat} (hscale : 0 < scale) (a n : Nat) :
    n / scale = a ↔ a * scale ≤ n ∧ n < a * scale + scale := by
  rw [Nat.div_eq_iff hscale]
  have := Nat.mul_comm a scale
  omega

theorem mem_rasterRows {scale : Nat} (hscale : 0 < scale) (row y : Nat) :
    y ∈ rasterRows scale row ↔ y / scale = row := by
  rw [div_eq_iff_block hscale]
  simp only [rasterRows, List.mem_map, List.mem_range]
  constructor
  · intro h
    obtain ⟨k, hk, rfl⟩ := h
    omega
  · intro h
    exact ⟨y - row * scale, by omega, by omega⟩

theorem nodup_rasterRows (scale row : Nat) : (rasterRows scale row).Nodup :=
  List.Nodup.map (fun _ _ h => Nat.add_left_cancel h) List.nodup_range

theorem getMsbD_blockMask {scale : Nat} (hscale : 0 < scale) {column : Nat}
    (hcolumn : column * scale + scale ≤ 128) (x : Nat) :
    (Plane.stretch (column * scale) scale).getMsbD x = decide (x / scale = column) := by
  rw [Plane.getMsbD_stretch]
  refine decide_eq_decide.mpr ?_
  rw [div_eq_iff_block hscale]
  omega

/-- The block under a logical pixel is on the raster. -/
def OnRaster (scale : Nat) (pixel : Nat × Nat) : Prop :=
  pixel.1 * scale + scale ≤ 128 ∧ pixel.2 * scale + scale ≤ 64

/-- A draw flips the block of a logical pixel and nothing else. -/
theorem pixel_flipBlock {scale : Nat} (hscale : 0 < scale) {pixel : Nat × Nat}
    (honRaster : OnRaster scale pixel) (drawn : Plane × Nat) (x y : Nat) :
    (flipBlock scale drawn pixel).1.pixel x y =
      (drawn.1.pixel x y ^^ decide (InBlock scale pixel x y)) := by
  obtain ⟨hcolumn, hrow⟩ := honRaster
  have hrows : ∀ row ∈ rasterRows scale pixel.2, row < 64 := by
    intro row hmem
    rw [mem_rasterRows hscale, div_eq_iff_block hscale] at hmem
    omega
  rw [flipBlock, Plane.pixel_foldl_flip _ _ _ _ _ hrows (nodup_rasterRows _ _),
    getMsbD_blockMask hscale hcolumn, ← Bool.decide_and]
  refine congrArg (drawn.1.pixel x y ^^ ·) (decide_eq_decide.mpr ?_)
  rw [mem_rasterRows hscale, InBlock, and_comm]

/-- Whether any pixel of the block under a logical pixel is lit. -/
def isBlockLit (scale : Nat) (plane : Plane) (pixel : Nat × Nat) : Bool :=
  (rasterRows scale pixel.2).any (plane.meets (Plane.stretch (pixel.1 * scale) scale))

theorem isBlockLit_iff {scale : Nat} (hscale : 0 < scale) {pixel : Nat × Nat}
    (honRaster : OnRaster scale pixel) (plane : Plane) :
    isBlockLit scale plane pixel = true ↔
      ∃ x y, InBlock scale pixel x y ∧ plane.pixel x y = true := by
  simp only [isBlockLit, List.any_eq_true, Plane.meets_iff, mem_rasterRows hscale,
    getMsbD_blockMask hscale honRaster.1, decide_eq_true_eq, InBlock]
  constructor
  · intro h
    obtain ⟨y, hy, x, hx, hlit⟩ := h
    exact ⟨x, y, ⟨hx, hy⟩, hlit⟩
  · intro h
    obtain ⟨x, y, ⟨hx, hy⟩, hlit⟩ := h
    exact ⟨y, hy, x, hx, hlit⟩

/-- A block counts as a hit if any of its pixels was lit. -/
theorem hits_flipBlock {scale : Nat} (hscale : 0 < scale) {pixel : Nat × Nat}
    (honRaster : OnRaster scale pixel) (drawn : Plane × Nat)
    [Decidable (∃ x y, InBlock scale pixel x y ∧ drawn.1.pixel x y = true)] :
    (flipBlock scale drawn pixel).2 =
      if ∃ x y, InBlock scale pixel x y ∧ drawn.1.pixel x y = true then drawn.2 + 1
      else drawn.2 :=
  if_congr (isBlockLit_iff hscale honRaster drawn.1) rfl rfl

end Screen

end ChipEight
