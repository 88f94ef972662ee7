import ChipEight.Screen.Sprite
import Mathlib.Data.List.Basic
import Mathlib.Data.List.Nodup

/-!
The bits of a sprite by column and row. Reading the data of a plane byte by byte visits the
set bits row by row and each row from the left, which is how the draws of this library are
compared with others. It does so as long as the bytes of the plane and of those before it can be
counted; a sprite with more of them is read from elsewhere, or not at all.
-/

namespace ChipEight.Sprite

/-- The bit of the data for the plane that is drawn after `ordinal` others. What the data do
not reach is not set. -/
def bit (sprite : Sprite) (ordinal column row : Nat) : Bool :=
  match sprite.data[ordinal * (sprite.height * sprite.bytesPerRow) +
      (row * sprite.bytesPerRow + column / 8)]? with
  | some byte => byte.toBitVec.getMsbD (column % 8)
  | none => false

/-- The bytes of a plane and those of the planes before it can be counted without wrapping
around. -/
structure Fits (sprite : Sprite) (ordinal : Nat) : Prop where
  length : sprite.height * sprite.bytesPerRow < UInt64.size
  start : ordinal * (sprite.height * sprite.bytesPerRow) < UInt64.size

instance (sprite : Sprite) (ordinal : Nat) : Decidable (sprite.Fits ordinal) :=
  decidable_of_iff
    (sprite.height * sprite.bytesPerRow < UInt64.size ∧
      ordinal * (sprite.height * sprite.bytesPerRow) < UInt64.size)
    ⟨fun h => ⟨h.1, h.2⟩, fun h => ⟨h.length, h.start⟩⟩

/-- The pixel of a set bit, unless its column is past the width. -/
def bitPixel? (sprite : Sprite) (ordinal row column : Nat) : Option (Nat × Nat) :=
  if column < sprite.width ∧ sprite.bit ordinal column row = true then some (column, row)
  else none

/-- The pixels of a plane's set bits, row by row from the top and each row from the left. -/
def bitPixels (sprite : Sprite) (ordinal : Nat) : List (Nat × Nat) :=
  (List.range sprite.height).flatMap fun row =>
    (List.range (sprite.bytesPerRow * 8)).filterMap (sprite.bitPixel? ordinal row)

section Lists

variable {α β : Type}

theorem flatMap_zipIdx (f : α × Nat → List β) (count : Nat) (xs : List α)
    (h : xs.length ≤ count) :
    xs.zipIdx.flatMap f =
      (List.range count).flatMap fun i => (xs[i]?).elim [] fun x => f (x, i) := by
  induction count generalizing xs with
  | zero => simp [List.length_eq_zero_iff.mp (Nat.le_zero.mp h)]
  | succ count ih =>
    rw [List.range_succ, List.flatMap_append]
    rcases Nat.lt_or_eq_of_le h with hlt | heq
    · rw [ih xs (by omega)]
      simp [List.getElem?_eq_none (show xs.length ≤ count by omega)]
    · obtain ⟨init, last, rfl⟩ : ∃ init last, xs = init ++ [last] := by
        rcases List.eq_nil_or_concat' xs with rfl | hconcat
        · simp at heq
        · exact hconcat
      have hlength : init.length = count := by simpa using heq
      rw [List.zipIdx_append, List.flatMap_append, ih init (by omega)]
      congr 1
      · refine List.flatMap_congr fun i hi => ?_
        rw [List.getElem?_append_left (by rw [List.mem_range] at hi; omega)]
      · simp [hlength]

/-- Counting through a rectangle row by row. -/
theorem flatMap_range_mul (rows columns : Nat) (f : Nat → List β) :
    (List.range (rows * columns)).flatMap f =
      (List.range rows).flatMap fun row =>
        (List.range columns).flatMap fun column => f (row * columns + column) := by
  induction rows with
  | zero => simp
  | succ rows ih =>
    rw [Nat.succ_mul, List.range_add, List.flatMap_append, ih, List.range_succ,
      List.flatMap_append, List.flatMap_map]
    simp

end Lists

section Shares

variable {sprite : Sprite} {ordinal : Nat}

theorem Fits.planeLength (h : sprite.Fits ordinal) :
    sprite.planeLength = sprite.height * sprite.bytesPerRow :=
  Nat.mod_eq_of_lt h.length

theorem Fits.shareStart (h : sprite.Fits ordinal) :
    sprite.shareStart ordinal = ordinal * (sprite.height * sprite.bytesPerRow) := by
  rw [Sprite.shareStart, h.planeLength]
  exact Nat.mod_eq_of_lt h.start

theorem Fits.share_getElem? (h : sprite.Fits ordinal) {position : Nat}
    (hposition : position < sprite.height * sprite.bytesPerRow) :
    (sprite.share ordinal)[position]? =
      sprite.data[ordinal * (sprite.height * sprite.bytesPerRow) + position]? := by
  rw [share, h.planeLength, h.shareStart, List.getElem?_take_of_lt hposition, List.getElem?_drop]

/-- The bits of one byte as part of its row. -/
theorem Fits.litInByte_eq (h : sprite.Fits ordinal) {row column : Nat}
    (hrow : row < sprite.height) (hcolumn : column < sprite.bytesPerRow) :
    ((sprite.share ordinal)[row * sprite.bytesPerRow + column]?).elim []
        (fun byte => sprite.litInByte byte (row * sprite.bytesPerRow + column)) =
      (List.range 8).flatMap fun bit =>
        (sprite.bitPixel? ordinal row (column * 8 + bit)).toList := by
  have hposition : row * sprite.bytesPerRow + column < sprite.height * sprite.bytesPerRow := by
    have hrows := Nat.mul_le_mul_right sprite.bytesPerRow (Nat.succ_le_of_lt hrow)
    rw [Nat.succ_mul] at hrows
    omega
  have hmod : (row * sprite.bytesPerRow + column) % sprite.bytesPerRow = column :=
    Nat.mul_add_mod_of_lt hcolumn
  have hdiv : (row * sprite.bytesPerRow + column) / sprite.bytesPerRow = row := by
    rw [Nat.mul_comm, Nat.mul_add_div (by omega), Nat.div_eq_of_lt hcolumn, Nat.add_zero]
  rw [h.share_getElem? hposition]
  cases hbyte : sprite.data[ordinal * (sprite.height * sprite.bytesPerRow) +
      (row * sprite.bytesPerRow + column)]? with
  | none =>
    refine (List.flatMap_eq_nil_iff.mpr fun bit hbit => ?_).symm
    have hcell : (column * 8 + bit) / 8 = column := by
      have := List.mem_range.mp hbit
      omega
    simp [bitPixel?, Sprite.bit, hcell, hbyte]
  | some byte =>
    rw [Option.elim_some, litInByte, List.filterMap_eq_flatMap_toList]
    refine List.flatMap_congr fun bit hbit => ?_
    have hlt := List.mem_range.mp hbit
    have hcell : (column * 8 + bit) / 8 = column := by omega
    have hbit : (column * 8 + bit) % 8 = bit := by omega
    simp [bitPixel?, Sprite.bit, hcell, hbit, hbyte, hmod, hdiv]

/-- The pixels that a draw visits are those of the set bits in the order of reading. -/
theorem Fits.litPixels_eq_bitPixels (h : sprite.Fits ordinal) :
    sprite.litPixels ordinal = sprite.bitPixels ordinal := by
  have hshare : (sprite.share ordinal).length ≤ sprite.height * sprite.bytesPerRow := by
    rw [share, List.length_take, h.planeLength]
    exact Nat.min_le_left _ _
  rw [litPixels, flatMap_zipIdx _ _ _ hshare, flatMap_range_mul, bitPixels]
  apply List.flatMap_congr
  intro row hrow
  rw [List.filterMap_eq_flatMap_toList, flatMap_range_mul]
  apply List.flatMap_congr
  intro column hcolumn
  exact h.litInByte_eq (List.mem_range.mp hrow) (List.mem_range.mp hcolumn)

end Shares

theorem mem_bitPixels_iff (sprite : Sprite) (ordinal : Nat) (pixel : Nat × Nat) :
    pixel ∈ sprite.bitPixels ordinal ↔
      pixel.1 < min sprite.width (8 * sprite.bytesPerRow) ∧ pixel.2 < sprite.height ∧
        sprite.bit ordinal pixel.1 pixel.2 = true := by
  obtain ⟨column, row⟩ := pixel
  simp only [bitPixels, List.mem_flatMap, List.mem_range, List.mem_filterMap, bitPixel?,
    Option.ite_none_right_eq_some, Option.some.injEq, Prod.mk.injEq]
  constructor
  · rintro ⟨_, hrow, _, hcolumn, ⟨hwidth, hbit⟩, rfl, rfl⟩
    exact ⟨by omega, hrow, hbit⟩
  · rintro ⟨hcolumn, hrow, hbit⟩
    exact ⟨row, hrow, column, by omega, ⟨by omega, hbit⟩, rfl, rfl⟩

/-- No bit is visited twice. -/
theorem nodup_bitPixels (sprite : Sprite) (ordinal : Nat) : (sprite.bitPixels ordinal).Nodup := by
  have hpixel {row column : Nat} {pixel : Nat × Nat}
      (h : pixel ∈ sprite.bitPixel? ordinal row column) : pixel = (column, row) := by
    rw [bitPixel?] at h
    split at h
    · exact (Option.mem_some_iff.mp h).symm
    · cases h
  refine List.nodup_flatMap.mpr ⟨fun row _ => ?_, ?_⟩
  · refine List.nodup_range.filterMap fun column other pixel h hother => ?_
    exact congrArg Prod.fst ((hpixel h).symm.trans (hpixel hother))
  · refine List.nodup_range.imp fun hne => ?_
    intro pixel h hother
    obtain ⟨column, -, hcolumn⟩ := List.mem_filterMap.mp h
    obtain ⟨column', -, hcolumn'⟩ := List.mem_filterMap.mp hother
    exact hne (congrArg Prod.snd ((hpixel hcolumn).symm.trans (hpixel hcolumn')))

end ChipEight.Sprite
