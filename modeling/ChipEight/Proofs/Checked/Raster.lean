import ChipEight.Proofs.Checked.Arithmetic
import ChipEight.Proofs.Screen.Pixel
import Mathlib.Data.List.ProdSigma

/-!
A plane as one array of 1024 bytes, sixteen to a row, whose bits are numbered from the most
significant bit of the first byte. Pixels are toggled by number and rows are moved as ranges of
bytes, each checked, and the outcome is that of the rows as words.
-/

namespace ChipEight

namespace Plane

/-- The bit of a number. -/
def bit (plane : Plane) (index : Nat) : Bool :=
  plane.pixel (index % 128) (index / 128)

/-- The row of these bits, the first of them leftmost. -/
def rowOfBits (bits : Nat → Bool) : BitVec 128 :=
  (BitVec.ofBoolListBE ((List.range 128).map bits)).cast (by simp)

def ofBits (bits : Nat → Bool) : Plane :=
  { rows := Vector.ofFn fun y => rowOfBits fun x => bits (y.val * 128 + x) }

theorem getMsbD_rowOfBits (bits : Nat → Bool) {x : Nat} (hx : x < 128) :
    (rowOfBits bits).getMsbD x = bits x := by
  simp [rowOfBits, BitVec.getMsbD_ofBoolListBE, hx]

theorem pixel_ofBits (bits : Nat → Bool) {x y : Nat} (hx : x < 128) (hy : y < 64) :
    (ofBits bits).pixel x y = bits (y * 128 + x) := by
  simp [ofBits, pixel, getMsbD_rowOfBits, hx, hy]

theorem bit_mul_add (plane : Plane) {x : Nat} (hx : x < 128) (y : Nat) :
    plane.bit (y * 128 + x) = plane.pixel x y := by
  have hmod : (y * 128 + x) % 128 = x := by omega
  have hdiv : (y * 128 + x) / 128 = y := by omega
  rw [bit, hmod, hdiv]

theorem eq_of_pixel_eq {first second : Plane}
    (h : ∀ x y, x < 128 → y < 64 → first.pixel x y = second.pixel x y) : first = second := by
  obtain ⟨rows⟩ := first
  obtain ⟨others⟩ := second
  refine congrArg Plane.mk (Vector.ext fun y hy => BitVec.eq_of_getMsbD_eq fun x hx => ?_)
  simpa [pixel, hy] using h x y hx hy

end Plane

namespace Checked

def bitAt (plane : Plane) (index : Nat) : Checked Bool :=
  if index < 8192 then .ok (plane.bit index) else .error (.outOfRange index 8192)

def setBit (plane : Plane) (index : Nat) (lit : Bool) : Checked Plane :=
  if index < 8192 then .ok (.ofBits fun i => if i = index then lit else plane.bit i)
  else .error (.outOfRange index 8192)

/-- Flips a pixel and tells whether it was lit. -/
def toggle (plane : Plane) (x y : Nat) : Checked (Plane × Bool) := do
  let row ← mul .size y 128
  let index ← add .size row x
  let wasLit ← bitAt plane index
  let plane ← setBit plane index (!wasLit)
  return (plane, wasLit)

/-- Flips the block of a logical pixel and tells whether any of it was lit. -/
def toggleBlock (plane : Plane) (x y scale : Nat) : Checked (Plane × Bool) :=
  (List.range scale).foldlM (fun drawn dy =>
    (List.range scale).foldlM (fun drawn dx => do
      let column ← add .size x dx
      let row ← add .size y dy
      let (plane, wasLit) ← toggle drawn.1 column row
      return (plane, drawn.2 || wasLit)) drawn) (plane, false)

/-- Copies the bytes from `start` up to `stop` to where `target` is, all of them in range. -/
def copyWithin (plane : Plane) (start stop target : Nat) : Checked Plane := do
  let count ← sub stop start
  let last ← sub 1024 count
  if stop ≤ 1024 ∧ target ≤ last then
    return .ofBits fun i =>
      if 8 * target ≤ i ∧ i < 8 * (target + count) then plane.bit (i - 8 * target + 8 * start)
      else plane.bit i
  else .error (.outOfRange (max stop target) 1024)

/-- Clears the bytes from `start` up to `stop`. -/
def clearBytes (plane : Plane) (start stop : Nat) : Checked Plane :=
  if start ≤ stop ∧ stop ≤ 1024 then
    .ok (.ofBits fun i => if 8 * start ≤ i ∧ i < 8 * stop then false else plane.bit i)
  else .error (.outOfRange (max start stop) 1024)

def scrollDown (plane : Plane) (distance : Nat) : Checked Plane := do
  let offset ← mul .size (min distance 64) 16
  let stop ← sub 1024 offset
  let plane ← copyWithin plane 0 stop offset
  clearBytes plane 0 offset

def scrollUp (plane : Plane) (distance : Nat) : Checked Plane := do
  let offset ← mul .size (min distance 64) 16
  let plane ← copyWithin plane offset 1024 0
  let start ← sub 1024 offset
  clearBytes plane start 1024

/-- Every row is shifted by a distance that must be below its length. -/
def shiftRows (plane : Plane) (distance : Nat) (shift : BitVec 128 → Nat → BitVec 128) :
    Checked Plane :=
  if distance < 128 then .ok { rows := plane.rows.map (shift · distance) }
  else .error (.outOfRange distance 128)

def scrollLeft (plane : Plane) (distance : Nat) : Checked Plane :=
  if 128 ≤ distance then .ok { } else shiftRows plane distance (· <<< ·)

def scrollRight (plane : Plane) (distance : Nat) : Checked Plane :=
  if 128 ≤ distance then .ok { } else shiftRows plane distance (· >>> ·)

section Scrolls

variable (plane : Plane) (distance : Nat)

theorem copyWithin_eq {start stop target : Nat} (hstart : start ≤ stop) (hstop : stop ≤ 1024)
    (htarget : target + (stop - start) ≤ 1024) :
    copyWithin plane start stop target = .ok (.ofBits fun i =>
      if 8 * target ≤ i ∧ i < 8 * (target + (stop - start)) then
        plane.bit (i - 8 * target + 8 * start)
      else plane.bit i) := by
  rw [copyWithin, sub_eq hstart, ok_bind, sub_eq (by omega), ok_bind, if_pos ⟨hstop, by omega⟩,
    pure_eq_ok]

theorem clearBytes_eq {start stop : Nat} (hstart : start ≤ stop) (hstop : stop ≤ 1024) :
    clearBytes plane start stop = .ok (.ofBits fun i =>
      if 8 * start ≤ i ∧ i < 8 * stop then false else plane.bit i) :=
  if_pos ⟨hstart, hstop⟩

theorem scrollDown_eq : scrollDown plane distance = .ok (plane.scrollDown distance) := by
  have hrows : min distance 64 ≤ 64 := Nat.min_le_right _ _
  rw [scrollDown, mul_size (by omega), ok_bind, sub_eq (by omega), ok_bind,
    copyWithin_eq plane (by omega) (by omega) (by omega), ok_bind,
    clearBytes_eq _ (by omega) (by omega)]
  refine congrArg Except.ok (Plane.eq_of_pixel_eq fun x y hx hy => ?_)
  rw [Plane.pixel_ofBits _ hx hy, Plane.bit_mul_add _ hx, Plane.pixel_ofBits _ hx hy,
    Plane.pixel_scrollDown]
  by_cases hdark : y < distance
  · rw [if_pos (by omega), decide_eq_false (by omega), Bool.false_and]
  · have hindex : y * 128 + x - 8 * (min distance 64 * 16) + 8 * 0 = (y - distance) * 128 + x := by
      omega
    rw [if_neg (by omega), if_pos (by omega), hindex, Plane.bit_mul_add _ hx,
      decide_eq_true (by omega), Bool.true_and]

theorem scrollUp_eq : scrollUp plane distance = .ok (plane.scrollUp distance) := by
  have hrows : min distance 64 ≤ 64 := Nat.min_le_right _ _
  rw [scrollUp, mul_size (by omega), ok_bind,
    copyWithin_eq plane (by omega) (by omega) (by omega), ok_bind, sub_eq (by omega), ok_bind,
    clearBytes_eq _ (by omega) (by omega)]
  refine congrArg Except.ok (Plane.eq_of_pixel_eq fun x y hx hy => ?_)
  rw [Plane.pixel_ofBits _ hx hy, Plane.bit_mul_add _ hx, Plane.pixel_ofBits _ hx hy,
    Plane.pixel_scrollUp]
  by_cases hdark : 64 ≤ y + distance
  · rw [if_pos (by omega), Plane.pixel_of_le_top plane x hdark]
  · have hindex : y * 128 + x - 8 * 0 + 8 * (min distance 64 * 16) = (y + distance) * 128 + x := by
      omega
    rw [if_neg (by omega), if_pos (by omega), hindex, Plane.bit_mul_add _ hx]

theorem scrollLeft_eq : scrollLeft plane distance = .ok (plane.scrollLeft distance) := by
  unfold scrollLeft
  split
  · next hfar =>
    refine congrArg Except.ok (Plane.eq_of_pixel_eq fun x y hx hy => ?_)
    rw [Plane.pixel_dark, Plane.pixel_scrollLeft, Plane.pixel_of_le_left plane y (by omega)]
  · exact if_pos (by omega)

theorem scrollRight_eq : scrollRight plane distance = .ok (plane.scrollRight distance) := by
  unfold scrollRight
  split
  · next hfar =>
    refine congrArg Except.ok (Plane.eq_of_pixel_eq fun x y hx hy => ?_)
    rw [Plane.pixel_dark, Plane.pixel_scrollRight, decide_eq_false (by omega), Bool.false_and]
  · exact if_pos (by omega)

end Scrolls

section Blocks

theorem toggle_eq (plane : Plane) {x y : Nat} (hx : x < 128) (hy : y < 64) :
    toggle plane x y = .ok (plane.flip (Plane.column x) y, plane.pixel x y) := by
  rw [toggle, mul_size (by omega), ok_bind,
    add_size (by omega), ok_bind, bitAt, if_pos (by omega), ok_bind, setBit,
    if_pos (by omega), ok_bind, pure_eq_ok, Plane.bit_mul_add _ hx]
  refine congrArg (fun flipped => Except.ok (flipped, plane.pixel x y))
    (Plane.eq_of_pixel_eq fun i j hi hj => ?_)
  rw [Plane.pixel_ofBits _ hi hj, Plane.bit_mul_add _ hi, Plane.pixel_flip _ _ _ _ _ hy,
    Plane.getMsbD_column hx]
  by_cases hsame : i = x ∧ j = y
  · obtain ⟨rfl, rfl⟩ := hsame
    simp
  · rw [if_neg (by omega), ← Bool.decide_and, decide_eq_false (by omega), Bool.xor_false]

/-- Flips a pixel, and remembers whether any so far was lit. -/
def togglePixel (drawn : Plane × Bool) (pixel : Nat × Nat) : Plane × Bool :=
  (drawn.1.flip (Plane.column pixel.1) pixel.2, drawn.2 || drawn.1.pixel pixel.1 pixel.2)

/-- The raster pixels of a block, row by row. -/
def blockPixels (scale x y : Nat) : List (Nat × Nat) :=
  (List.range scale ×ˢ List.range scale).map fun step => (x + step.2, y + step.1)

theorem toggleBlock_eq_foldl (plane : Plane) {x y scale : Nat} (hx : x + scale ≤ 128)
    (hy : y + scale ≤ 64) :
    toggleBlock plane x y scale =
      .ok ((blockPixels scale x y).foldl togglePixel (plane, false)) := by
  have hproduct : List.range scale ×ˢ List.range scale =
      (List.range scale).flatMap fun dy => (List.range scale).map (Prod.mk dy) := rfl
  rw [blockPixels, List.foldl_map, hproduct, List.foldl_flatMap]
  simp only [List.foldl_map]
  refine foldlM_eq_foldl (fun drawn dy hdy => foldlM_eq_foldl (fun drawn dx hdx => ?_) drawn) _
  rw [List.mem_range] at hdx hdy
  rw [add_size (by omega), ok_bind, add_size (by omega),
    ok_bind, toggle_eq _ (by omega) (by omega)]
  rfl

theorem nodup_blockPixels (scale x y : Nat) : (blockPixels scale x y).Nodup := by
  refine List.Nodup.map ?_ (List.nodup_range.product List.nodup_range)
  intro first second h
  obtain ⟨hx, hy⟩ := Prod.ext_iff.mp h
  exact Prod.ext (Nat.add_left_cancel hy) (Nat.add_left_cancel hx)

theorem mem_blockPixels {scale : Nat} (hscale : 0 < scale) (pixel : Nat × Nat) (x y : Nat) :
    (x, y) ∈ blockPixels scale (pixel.1 * scale) (pixel.2 * scale) ↔
      Screen.InBlock scale pixel x y := by
  rw [Screen.InBlock, Screen.div_eq_iff_block hscale, Screen.div_eq_iff_block hscale]
  simp only [blockPixels, List.mem_map, List.mem_product, List.mem_range, Prod.exists,
    Prod.mk.injEq]
  constructor
  · rintro ⟨dy, dx, ⟨hdy, hdx⟩, rfl, rfl⟩
    omega
  · intro h
    exact ⟨y - pixel.2 * scale, x - pixel.1 * scale, by omega, by omega, by omega⟩

/-- Pixels that are all different do not disturb each other. -/
theorem foldl_togglePixel {pixels : List (Nat × Nat)} (hnodup : pixels.Nodup)
    (hinside : ∀ pixel ∈ pixels, pixel.1 < 128 ∧ pixel.2 < 64) (drawn : Plane × Bool) :
    (∀ x y, (pixels.foldl togglePixel drawn).1.pixel x y =
      (drawn.1.pixel x y ^^ decide ((x, y) ∈ pixels))) ∧
    (pixels.foldl togglePixel drawn).2 =
      (drawn.2 || pixels.any fun pixel => drawn.1.pixel pixel.1 pixel.2) := by
  induction pixels generalizing drawn with
  | nil => simp
  | cons pixel pixels ih =>
    obtain ⟨hfirst, hrest⟩ := List.nodup_cons.mp hnodup
    obtain ⟨hx, hy⟩ := hinside pixel List.mem_cons_self
    have hflip (x y : Nat) : (togglePixel drawn pixel).1.pixel x y =
        (drawn.1.pixel x y ^^ decide ((x, y) = pixel)) := by
      rw [togglePixel, Plane.pixel_flip _ _ _ _ _ hy, Plane.getMsbD_column hx, ← Bool.decide_and]
      exact congrArg _ (decide_eq_decide.mpr (by rw [Prod.ext_iff, and_comm]))
    obtain ⟨hpixel, hlit⟩ := ih hrest
      (fun other hother => hinside other (List.mem_cons_of_mem _ hother)) (togglePixel drawn pixel)
    rw [List.foldl_cons]
    refine ⟨fun x y => ?_, ?_⟩
    · rw [hpixel, hflip, Bool.xor_assoc]
      refine congrArg (drawn.1.pixel x y ^^ ·) ?_
      by_cases hsame : (x, y) = pixel
      · simp [hsame, hfirst]
      · simp [hsame]
    · have hothers : ∀ other ∈ pixels,
          (togglePixel drawn pixel).1.pixel other.1 other.2 = drawn.1.pixel other.1 other.2 := by
        intro other hother
        have hne : other ≠ pixel := fun h => hfirst (h ▸ hother)
        rw [hflip, decide_eq_false hne, Bool.xor_false]
      have hany : (pixels.any fun other => (togglePixel drawn pixel).1.pixel other.1 other.2) =
          pixels.any fun other => drawn.1.pixel other.1 other.2 := by
        rw [Bool.eq_iff_iff, List.any_eq_true, List.any_eq_true]
        exact exists_congr fun other => and_congr_right fun hother => by rw [hothers other hother]
      rw [hlit, hany, List.any_cons]
      exact Bool.or_assoc _ _ _

/-- Inside the raster, the block of a logical pixel is flipped as a whole. -/
theorem toggleBlock_eq {scale : Nat} (hscale : 0 < scale) {pixel : Nat × Nat}
    (honRaster : Screen.OnRaster scale pixel) (drawn : Plane × Nat) :
    ∃ wasLit, toggleBlock drawn.1 (pixel.1 * scale) (pixel.2 * scale) scale =
        .ok ((Screen.flipBlock scale drawn pixel).1, wasLit) ∧
      (Screen.flipBlock scale drawn pixel).2 = if wasLit then drawn.2 + 1 else drawn.2 := by
  classical
  have ⟨hcolumn, hrow⟩ := honRaster
  have hmem := mem_blockPixels hscale pixel
  have hinside : ∀ other ∈ blockPixels scale (pixel.1 * scale) (pixel.2 * scale),
      other.1 < 128 ∧ other.2 < 64 := by
    intro other hother
    have hblock := (hmem other.1 other.2).mp hother
    rw [Screen.InBlock, Screen.div_eq_iff_block hscale, Screen.div_eq_iff_block hscale] at hblock
    omega
  obtain ⟨hpixels, hlit⟩ := foldl_togglePixel (nodup_blockPixels _ _ _) hinside (drawn.1, false)
  refine ⟨((blockPixels scale (pixel.1 * scale) (pixel.2 * scale)).foldl togglePixel
    (drawn.1, false)).2, ?_, ?_⟩
  · rw [toggleBlock_eq_foldl drawn.1 hcolumn hrow]
    refine congrArg Except.ok (Prod.ext (Plane.eq_of_pixel_eq fun x y hx hy => ?_) rfl)
    rw [hpixels, Screen.pixel_flipBlock hscale honRaster]
    exact congrArg _ (decide_eq_decide.mpr (hmem x y))
  · rw [Screen.hits_flipBlock hscale honRaster, hlit]
    refine if_congr ?_ rfl rfl
    simp only [Bool.false_or, List.any_eq_true, Prod.exists, hmem]

end Blocks

end Checked

end ChipEight
