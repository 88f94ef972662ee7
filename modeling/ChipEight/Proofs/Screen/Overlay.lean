import ChipEight.Proofs.Checked.Screen
import ChipEight.Proofs.Screen.SpriteBits
import Mathlib.Data.Finset.Prod

/-!
A draw pixel by pixel. It turns over the pixels on which an odd number of set bits fall, and this
number follows from the sprite and its place alone, not from what the screen shows. Sprites may
be of any size whose bytes can be counted, cover themselves where they wrap around, and have fewer
data than pixels.
-/

namespace ChipEight

/-- Where a bit of a sprite falls. It wraps around if the sprite is to wrap or its origin is off the
screen, and otherwise a bit off the screen falls nowhere. -/
def Sprite.landing (width height x y : Nat) (wrap : Bool) (bit : Nat × Nat) : Option (Nat × Nat) :=
  let column := x % width + bit.1
  let row := y % height + bit.2
  if wrap = true ∨ width ≤ x ∨ height ≤ y then some (column % width, row % height)
  else if column < width ∧ row < height then some (column, row)
  else none

/-- A bit that falls on the screen stays where it is when it is wrapped around. -/
theorem Sprite.destination_eq_landing (width height x y : Nat) (wrap : Bool) (bit : Nat × Nat) :
    destination width height x y wrap bit = landing width height x y wrap bit := by
  have hwraps : (wrap || decide (width ≤ x) || decide (height ≤ y)) = true ↔
      wrap = true ∨ width ≤ x ∨ height ≤ y := by
    simp only [Bool.or_eq_true, decide_eq_true_eq, or_assoc]
  unfold destination landing
  dsimp only
  by_cases hinside : x % width + bit.1 < width ∧ y % height + bit.2 < height
  · rw [if_pos hinside, if_pos hinside, Nat.mod_eq_of_lt hinside.1, Nat.mod_eq_of_lt hinside.2,
      ite_self]
  · rw [if_neg hinside, if_neg hinside]
    exact if_congr hwraps rfl rfl

/-- How many of a plane's set bits have a property. -/
theorem Sprite.countP_bitPixels (sprite : Sprite) (ordinal : Nat) (property : Nat × Nat → Bool) :
    (sprite.bitPixels ordinal).countP property =
      ((Finset.range (min sprite.width (8 * sprite.bytesPerRow)) ×ˢ
        Finset.range sprite.height).filter fun bit =>
          sprite.bit ordinal bit.1 bit.2 = true ∧ property bit = true).card := by
  have hnodup := sprite.nodup_bitPixels ordinal
  rw [List.countP_eq_length_filter, ← List.toFinset_card_of_nodup (hnodup.filter _)]
  refine congrArg Finset.card (Finset.ext fun bit => ?_)
  simp only [List.mem_toFinset, List.mem_filter, mem_bitPixels_iff, Finset.mem_filter,
    Finset.mem_product, Finset.mem_range, and_assoc]

namespace Screen

/-- The set bits for plane `p` that fall on a logical pixel, by column and row. The selected
planes before it take the data before. -/
def covering (screen : Screen) (sprite : Sprite) (x y : Nat) (wrap : Bool) (p : Nat)
    (target : Nat × Nat) : Finset (Nat × Nat) :=
  (Finset.range (min sprite.width (8 * sprite.bytesPerRow)) ×ˢ
    Finset.range sprite.height).filter fun bit =>
      sprite.bit (screen.selectedBefore p) bit.1 bit.2 = true ∧
        Sprite.landing screen.width screen.height x y wrap bit = some target

section Targets

variable (screen : Screen) (sprite : Sprite) (x y : Nat) (wrap : Bool) (p : Nat)

/-- How often a draw visits a logical pixel. -/
theorem count_targets {sprite : Sprite} {p : Nat} (hfits : sprite.Fits (screen.selectedBefore p))
    (target : Nat × Nat) :
    (screen.targets sprite x y wrap p).count target =
      (screen.covering sprite x y wrap p target).card := by
  rw [targets, hfits.litPixels_eq_bitPixels, List.count_filterMap, Sprite.countP_bitPixels]
  simp only [covering, Sprite.destination_eq_landing, beq_iff_eq]

theorem onRaster_targets :
    ∀ target ∈ screen.targets sprite x y wrap p, OnRaster screen.scale target := by
  intro target htarget
  obtain ⟨bit, -, hdestination⟩ := List.mem_filterMap.mp htarget
  obtain ⟨hcolumn, hrow⟩ := Checked.destination_lt screen x y wrap hdestination
  exact Checked.onRaster screen hcolumn hrow

end Targets

/-- Each visit of a block turns its pixels over once more. -/
theorem pixel_foldl_flipBlock {scale : Nat} (hscale : 0 < scale) {targets : List (Nat × Nat)}
    (honRaster : ∀ target ∈ targets, OnRaster scale target) (drawn : Plane × Nat)
    (column row : Nat) :
    (targets.foldl (flipBlock scale) drawn).1.pixel column row =
      (drawn.1.pixel column row ^^
        decide (targets.count (column / scale, row / scale) % 2 = 1)) := by
  induction targets generalizing drawn with
  | nil => simp
  | cons target targets ih =>
    rw [List.foldl_cons, ih fun other hother => honRaster other (List.mem_cons_of_mem _ hother),
      pixel_flipBlock hscale (honRaster target List.mem_cons_self), Bool.xor_assoc]
    refine congrArg (drawn.1.pixel column row ^^ ·) ?_
    by_cases hsame : target = (column / scale, row / scale)
    · have hinside : InBlock scale target column row := by rw [hsame]; exact ⟨rfl, rfl⟩
      rw [hsame, List.count_cons_self, ← hsame, decide_eq_true hinside, Bool.true_xor,
        ← decide_not]
      exact decide_eq_decide.mpr (by omega)
    · have houtside : ¬ InBlock scale target column row :=
        fun h => hsame (Prod.ext h.1.symm h.2.symm)
      rw [List.count_cons_of_ne hsame, decide_eq_false houtside, Bool.false_xor]

end Screen

namespace Checked

end Checked

namespace Screen

/-- The first and the last column of a sprite that goes once around the screen cancel out. -/
example :
    let sprite : Sprite :=
      { width := 65, height := 1, bytesPerRow := 9, data := [0x80, 0, 0, 0, 0, 0, 0, 0, 0x80] }
    (({ } : Screen).covering sprite 0 0 true 0 (0, 0)).card = 2 ∧
      ((({ } : Screen).draw sprite 0 0 true).1.plane 0).pixel 0 0 = false := by
  decide +kernel

end Screen

end ChipEight
