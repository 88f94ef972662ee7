/-!
One bit per pixel of the 128 by 64 raster, a row as a word whose most significant bit is the
leftmost pixel. Coordinates are plain numbers; what lies off the raster is dark and stays so.
-/

namespace ChipEight

structure Plane where
  rows : Vector (BitVec 128) 64 := Vector.replicate 64 0
  deriving DecidableEq

namespace Plane

/-- Whether a pixel is lit. -/
def pixel (plane : Plane) (x y : Nat) : Bool :=
  if h : y < 64 then plane.rows[y].getMsbD x else false

/-- As `pixel`, but nothing off the raster. -/
def pixel? (plane : Plane) (x y : Nat) : Option Bool :=
  if x < 128 ∧ y < 64 then some (plane.pixel x y) else none

/-- The row in which the pixel at `x` alone is lit. -/
def column (x : Nat) : BitVec 128 :=
  BitVec.twoPow 128 (127 - x)

/-- All of these rows, worked out once. -/
def columns : Vector (BitVec 128) 128 :=
  Vector.ofFn fun x => column x.val

/-- The row in which `count` pixels from `x` on are lit. -/
def stretch (x : Nat) : Nat → BitVec 128
  | 0 => 0
  | count + 1 => if h : x < 128 then stretch (x + 1) count ||| columns[x] else 0

theorem getMsbD_column {x : Nat} (hx : x < 128) (i : Nat) :
    (column x).getMsbD i = decide (i = x) := by
  rw [column, BitVec.getMsbD, BitVec.getLsbD_twoPow]
  by_cases hi : i = x
  · subst hi
    simp [hx]
    omega
  · simp only [hi, decide_false, Bool.and_eq_false_iff, decide_eq_false_iff_not]
    omega

theorem getMsbD_stretch (x count i : Nat) :
    (stretch x count).getMsbD i = decide (x ≤ i ∧ i < x + count ∧ i < 128) := by
  induction count generalizing x with
  | zero => simp [stretch]; omega
  | succ count ih =>
    rw [stretch]
    split
    · rename_i hx
      simp only [BitVec.getMsbD_or, ih, columns, Vector.getElem_ofFn, getMsbD_column hx]
      rw [← Bool.decide_or]
      exact decide_eq_decide.mpr (by omega)
    · simp
      omega

/-- Whether some pixel of row `y` that is lit in `mask` is lit. -/
def meets (plane : Plane) (mask : BitVec 128) (y : Nat) : Bool :=
  if h : y < 64 then plane.rows[y] &&& mask ≠ 0 else false

/-- Flips the pixels of row `y` that are lit in `mask`. -/
def flip (plane : Plane) (mask : BitVec 128) (y : Nat) : Plane :=
  if h : y < 64 then { rows := plane.rows.set y (plane.rows[y] ^^^ mask) } else plane

theorem pixel_flip (plane : Plane) (mask : BitVec 128) (row x y : Nat) (hrow : row < 64) :
    (plane.flip mask row).pixel x y = (plane.pixel x y ^^ (decide (y = row) && mask.getMsbD x)) := by
  by_cases hy : y < 64
  · by_cases h : y = row
    · subst h
      simp [flip, pixel, hrow]
    · simp [flip, pixel, hrow, hy, h, Ne.symm h]
  · have h : y ≠ row := by omega
    simp [pixel, hy, h]

/-- Rows move towards the bottom, dark rows enter at the top. -/
def scrollDown (plane : Plane) (distance : Nat) : Plane :=
  { rows := Vector.ofFn fun y =>
      if h : distance ≤ y.val then plane.rows.get ⟨y.val - distance, by omega⟩ else 0 }

def scrollUp (plane : Plane) (distance : Nat) : Plane :=
  { rows := Vector.ofFn fun y =>
      if h : y.val + distance < 64 then plane.rows[y.val + distance] else 0 }

/-- Pixels move left within their row; what leaves a row is lost. -/
def scrollLeft (plane : Plane) (distance : Nat) : Plane :=
  { rows := plane.rows.map fun row : BitVec 128 => row <<< distance }

def scrollRight (plane : Plane) (distance : Nat) : Plane :=
  { rows := plane.rows.map fun row : BitVec 128 => row >>> distance }

/-- A row as sixteen bytes, the leftmost pixels first. -/
def rowBytes (row : BitVec 128) : List UInt8 :=
  (List.range 16).map fun k => UInt8.ofNat (row.toNat >>> (8 * (15 - k)))

/-- Number of lit pixels among the eight of a byte. -/
def litInByte (byte : UInt8) : Nat :=
  (List.range 8).countP byte.toBitVec.getMsbD

/-- Number of lit pixels of a row. -/
def litInRow (row : BitVec 128) : Nat :=
  if row = 0 then 0 else (rowBytes row).foldl (fun count byte => count + litInByte byte) 0

def litCount (plane : Plane) : Nat :=
  plane.rows.foldl (fun count row => count + litInRow row) 0

/-- All rows as bytes, from the top. -/
def bytes (plane : Plane) : List UInt8 :=
  plane.rows.toList.flatMap rowBytes

/-- The lit pixels, row by row from the top and each row from the left. -/
def litPixels (plane : Plane) : List (Nat × Nat) :=
  (List.range 64).flatMap fun y =>
    ((List.range 128).filter fun x => plane.pixel x y).map fun x => (x, y)

end Plane

end ChipEight
