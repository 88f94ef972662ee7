import ChipEight.Proofs.Checked.Screen

/-!
Scrolls pixel by pixel. All pixels of a selected plane move by one and the same distance, which
doubles for scaled scrolls in low resolution; what leaves the raster is lost and what enters is
dark. Rows move as ranges of bytes of the raster that overlap, and pixels within their rows.
-/

namespace ChipEight

/-- Where a host scrolls to. -/
inductive Heading where
  | down (rows : UInt8)
  | up (rows : UInt8)
  | left
  | right
  deriving DecidableEq, Repr

namespace Heading

/-- Logical pixels of a scroll. -/
def steps : Heading → Nat
  | .down rows | .up rows => rows.toNat
  | .left | .right => 4

/-- How far a pixel gets to the right and down. -/
def shift (distance : Int) : Heading → Int × Int
  | .down _ => (0, distance)
  | .up _ => (0, -distance)
  | .left => (-distance, 0)
  | .right => (distance, 0)

def isSideways : Heading → Bool
  | .left | .right => true
  | .down _ | .up _ => false

theorem shift_of_isSideways {heading : Heading} (h : heading.isSideways = true) (distance : Int) :
    (heading.shift distance).2 = 0 := by
  cases heading with
  | left | right => rfl
  | down _ | up _ => cases h

end Heading

namespace Plane

/-- Whether the place is on the raster and its pixel is lit. -/
def litAt (plane : Plane) (x y : Int) : Bool :=
  if 0 ≤ x ∧ x < 128 ∧ 0 ≤ y ∧ y < 64 then plane.pixel x.toNat y.toNat else false

def move (plane : Plane) (distance : Nat) : Heading → Plane
  | .down _ => plane.scrollDown distance
  | .up _ => plane.scrollUp distance
  | .left => plane.scrollLeft distance
  | .right => plane.scrollRight distance

variable (plane : Plane)

theorem litAt_natCast {x y : Int} (column row : Nat) (hcolumn : x = column) (hrow : y = row)
    (hx : column < 128) (hy : row < 64) : plane.litAt x y = plane.pixel column row := by
  subst hcolumn hrow
  exact if_pos (by omega)

theorem litAt_of_off {x y : Int} (h : x < 0 ∨ 128 ≤ x ∨ y < 0 ∨ 64 ≤ y) :
    plane.litAt x y = false :=
  if_neg (by omega)

theorem pixel_move (heading : Heading) (distance : Nat) {x y : Nat} (hx : x < 128) (hy : y < 64) :
    (plane.move distance heading).pixel x y =
      plane.litAt (x - (heading.shift distance).1) (y - (heading.shift distance).2) := by
  cases heading with
  | down rows =>
    simp only [move, Heading.shift, pixel_scrollDown]
    by_cases hinside : distance ≤ y
    · rw [plane.litAt_natCast x (y - distance) (by omega) (by omega) hx (by omega),
        decide_eq_true ⟨hinside, hy⟩, Bool.true_and]
    · rw [plane.litAt_of_off (by omega), decide_eq_false (by omega), Bool.false_and]
  | up rows =>
    simp only [move, Heading.shift, pixel_scrollUp]
    by_cases hinside : y + distance < 64
    · rw [plane.litAt_natCast x (y + distance) (by omega) (by omega) hx hinside]
    · rw [plane.litAt_of_off (by omega), plane.pixel_of_le_top x (by omega)]
  | left =>
    simp only [move, Heading.shift, pixel_scrollLeft]
    by_cases hinside : x + distance < 128
    · rw [plane.litAt_natCast (x + distance) y (by omega) (by omega) hinside hy]
    · rw [plane.litAt_of_off (by omega), plane.pixel_of_le_left y (by omega)]
  | right =>
    simp only [move, Heading.shift, pixel_scrollRight]
    by_cases hinside : distance ≤ x
    · rw [plane.litAt_natCast (x - distance) y (by omega) (by omega) (by omega) hy,
        decide_eq_true ⟨hinside, hx⟩, Bool.true_and]
    · rw [plane.litAt_of_off (by omega), decide_eq_false (by omega), Bool.false_and]

/-- No row is left when all of them have moved off the raster. -/
theorem move_eq_dark {heading : Heading} (hsideways : heading.isSideways = false) {distance : Nat}
    (h : 64 ≤ distance) : plane.move distance heading = { } := by
  refine eq_of_pixel_eq fun x y hx hy => ?_
  rw [plane.pixel_move heading distance hx hy, pixel_dark]
  apply plane.litAt_of_off
  cases heading with
  | down _ | up _ =>
    simp only [Heading.shift]
    omega
  | left | right => cases hsideways

/-- A pixel that is lit after a move to a side comes from a lit pixel of its row. -/
theorem exists_pixel_of_move {heading : Heading} (hsideways : heading.isSideways = true)
    {distance x y : Nat} (hlit : (plane.move distance heading).pixel x y = true) :
    ∃ column, plane.pixel column y = true := by
  have hx : x < 128 := by
    by_contra hoff
    rw [pixel_of_le_left _ y (by omega)] at hlit
    cases hlit
  have hy : y < 64 := by
    by_contra hoff
    rw [pixel_of_le_top _ x (by omega)] at hlit
    cases hlit
  rw [plane.pixel_move heading distance hx hy, Heading.shift_of_isSideways hsideways,
    Int.sub_zero, litAt] at hlit
  split at hlit
  · exact ⟨_, hlit⟩
  · cases hlit

end Plane

/-- A move as copies of bytes and shifts of rows, each of them checked. -/
def Checked.movePlane (plane : Plane) (distance : Nat) : Heading → Checked Plane
  | .down _ => scrollDown plane distance
  | .up _ => scrollUp plane distance
  | .left => scrollLeft plane distance
  | .right => scrollRight plane distance

theorem Checked.movePlane_eq (plane : Plane) (distance : Nat) (heading : Heading) :
    movePlane plane distance heading = .ok (plane.move distance heading) := by
  cases heading with
  | down rows => exact scrollDown_eq plane distance
  | up rows => exact scrollUp_eq plane distance
  | left => exact scrollLeft_eq plane distance
  | right => exact scrollRight_eq plane distance

namespace Screen

def scrollTo (screen : Screen) (scaled : Bool) : Heading → Screen
  | .down rows => screen.scrollDown rows.toNat scaled
  | .up rows => screen.scrollUp rows.toNat scaled
  | .left => screen.scrollLeft scaled
  | .right => screen.scrollRight scaled

/-- Raster pixels of a scroll. -/
def rasterSteps (screen : Screen) (scaled : Bool) (heading : Heading) : Nat :=
  if scaled = true ∧ screen.highResolution = false then 2 * heading.steps else heading.steps

theorem scrollDistance_eq_ite (screen : Screen) (distance : Nat) (scaled : Bool) :
    screen.scrollDistance distance scaled =
      if scaled = true ∧ screen.highResolution = false then 2 * distance else distance := by
  unfold scrollDistance scale
  cases scaled <;> cases screen.highResolution <;> simp [Nat.mul_comm]

theorem scrollTo_eq (screen : Screen) (scaled : Bool) (heading : Heading) :
    screen.scrollTo scaled heading =
      screen.onSelected (·.move (screen.rasterSteps scaled heading) heading) := by
  cases heading with
  | down rows =>
    simp only [scrollTo, scrollDown, scrollDistance_eq_ite, rasterSteps, Heading.steps, Plane.move]
  | up rows =>
    simp only [scrollTo, scrollUp, scrollDistance_eq_ite, rasterSteps, Heading.steps, Plane.move]
  | left =>
    simp only [scrollTo, scrollLeft, scrollDistance_eq_ite, rasterSteps, Heading.steps, Plane.move,
      sideStep]
  | right =>
    simp only [scrollTo, scrollRight, scrollDistance_eq_ite, rasterSteps, Heading.steps, Plane.move,
      sideStep]

/-- The selected planes have moved by a distance, and the rest of the screen is as before. -/
structure Moved (before after : Screen) (heading : Heading) (distance : Nat) : Prop where
  pixel : ∀ p : Fin 4, before.isSelected p = true → ∀ x y : Nat, x < 128 → y < 64 →
    (after.plane p).pixel x y =
      (before.plane p).litAt (x - (heading.shift distance).1) (y - (heading.shift distance).2)
  emptied : ∀ p : Fin 4, before.isSelected p = true → heading.isSideways = false →
    64 ≤ distance → after.plane p = { }
  row : ∀ p : Fin 4, before.isSelected p = true → heading.isSideways = true → ∀ x y : Nat,
    (after.plane p).pixel x y = true → ∃ column, (before.plane p).pixel column y = true
  unselected : ∀ p : Fin 4, before.isSelected p = false → after.plane p = before.plane p
  bytes : ∀ p : Fin 4, before.isSelected p = true →
    Checked.movePlane (before.plane p) distance heading = .ok (after.plane p)
  highResolution : after.highResolution = before.highResolution
  selected : after.selected = before.selected
  changed : after.changed = true
  awaitingBlank : after.awaitingBlank = before.awaitingBlank

/-- A scroll takes every pixel of the selected planes from where it is by the distance, and nothing
else. Rows leave at one edge, and sideways no pixel gets into another row. -/
theorem scrolls_move_pixels (screen : Screen) (scaled : Bool) (heading : Heading) :
    Moved screen (screen.scrollTo scaled heading) heading (screen.rasterSteps scaled heading) := by
  rw [scrollTo_eq]
  have hplane : ∀ p : Fin 4, screen.isSelected p = true →
      (screen.onSelected (·.move (screen.rasterSteps scaled heading) heading)).plane p =
        (screen.plane p).move (screen.rasterSteps scaled heading) heading := by
    intro p hselected
    rw [plane_onSelected, if_pos hselected]
  exact {
    pixel := by
      intro p hselected x y hx hy
      rw [hplane p hselected]
      exact (screen.plane p).pixel_move heading _ hx hy
    emptied := by
      intro p hselected hsideways hfar
      rw [hplane p hselected]
      exact (screen.plane p).move_eq_dark hsideways hfar
    row := by
      intro p hselected hsideways x y hlit
      rw [hplane p hselected] at hlit
      exact (screen.plane p).exists_pixel_of_move hsideways hlit
    unselected := by
      intro p hunselected
      rw [plane_onSelected, hunselected]
      rfl
    bytes := by
      intro p hselected
      rw [hplane p hselected]
      exact Checked.movePlane_eq _ _ _
    highResolution := rfl
    selected := rfl
    changed := rfl
    awaitingBlank := rfl }

/-- The largest distance is past all rows of the raster. -/
example : ({ } : Screen).rasterSteps true (.down 255) = 510 := by decide

end Screen

end ChipEight
