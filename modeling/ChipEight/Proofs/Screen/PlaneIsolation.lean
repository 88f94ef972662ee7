import ChipEight.Proofs.Screen.Operation

/-!
How far the planes depend on each other. What an operation makes of a plane follows from this
plane, the resolution and the mask of selected planes: the shares of a sprite are dealt out by
the mask alone. A plane that is not selected stays as it is.
-/

namespace ChipEight.Screen

/-- The screen after a list of operations. -/
def performAll (screen : Screen) (operations : List Operation) : Screen :=
  operations.foldl (fun screen operation => (screen.perform operation).1) screen

theorem performAll_cons (screen : Screen) (operation : Operation) (operations : List Operation) :
    screen.performAll (operation :: operations) =
      (screen.perform operation).1.performAll operations := rfl

/-- The screens show the same in plane `p` and treat it in the same way. The other planes, the
mark of a change and a draw that waits may differ. -/
structure AgreeOn (p : Fin 4) (first second : Screen) : Prop where
  plane : first.plane p = second.plane p
  highResolution : first.highResolution = second.highResolution
  selected : first.selected = second.selected

namespace AgreeOn

variable {p : Fin 4} {first second : Screen}

theorem isSelected (h : AgreeOn p first second) : first.isSelected = second.isSelected := by
  funext q
  rw [Screen.isSelected, Screen.isSelected, h.selected]

theorem scale (h : AgreeOn p first second) : first.scale = second.scale := by
  rw [Screen.scale, Screen.scale, h.highResolution]

theorem scrollDistance (h : AgreeOn p first second) (distance : Nat) (scaled : Bool) :
    first.scrollDistance distance scaled = second.scrollDistance distance scaled := by
  rw [Screen.scrollDistance, Screen.scrollDistance, h.scale]

/-- Which share of a sprite a plane gets is a matter of the mask. -/
theorem targets (h : AgreeOn p first second) (sprite : Sprite) (x y : Nat) (wrap : Bool)
    (q : Nat) : first.targets sprite x y wrap q = second.targets sprite x y wrap q := by
  have hbefore : first.selectedBefore q = second.selectedBefore q := by
    rw [selectedBefore, selectedBefore, h.isSelected]
  have hwidth : first.width = second.width := by
    rw [Screen.width, Screen.width, h.highResolution]
  have hheight : first.height = second.height := by
    rw [Screen.height, Screen.height, h.highResolution]
  rw [Screen.targets, Screen.targets, hbefore, hwidth, hheight]

theorem drawnPlane (h : AgreeOn p first second) (sprite : Sprite) (x y : Nat) (wrap : Bool) :
    first.drawnPlane sprite x y wrap p = second.drawnPlane sprite x y wrap p := by
  rw [Screen.drawnPlane, Screen.drawnPlane, h.isSelected, h.targets, h.scale, h.plane]

theorem draw (h : AgreeOn p first second) (sprite : Sprite) (x y : UInt8) (wrap : Bool) :
    AgreeOn p (first.draw sprite x y wrap).1 (second.draw sprite x y wrap).1 where
  plane := by rw [plane_draw, plane_draw, h.drawnPlane]
  highResolution := h.highResolution
  selected := h.selected

theorem onSelected (h : AgreeOn p first second) (change : Plane → Plane) :
    AgreeOn p (first.onSelected change) (second.onSelected change) where
  plane := by rw [plane_onSelected, plane_onSelected, h.isSelected, h.plane]
  highResolution := h.highResolution
  selected := h.selected

/-- The step of the run, one case for each operation. -/
theorem perform (h : AgreeOn p first second) (operation : Operation) :
    AgreeOn p (first.perform operation).1 (second.perform operation).1 := by
  cases operation with
  | draw sprite x y wrap => exact h.draw sprite x y wrap
  | clear => exact h.onSelected fun _ => { }
  | setResolution high => exact ⟨h.plane, rfl, h.selected⟩
  | selectPlanes mask => exact ⟨h.plane, h.highResolution, rfl⟩
  | scrollDown rows scaled =>
    simp only [Screen.perform, Screen.scrollDown, h.scrollDistance]
    exact h.onSelected _
  | scrollUp rows scaled =>
    simp only [Screen.perform, Screen.scrollUp, h.scrollDistance]
    exact h.onSelected _
  | scrollLeft scaled =>
    simp only [Screen.perform, Screen.scrollLeft, h.scrollDistance]
    exact h.onSelected _
  | scrollRight scaled =>
    simp only [Screen.perform, Screen.scrollRight, h.scrollDistance]
    exact h.onSelected _
  | endBlank => exact ⟨h.plane, h.highResolution, h.selected⟩
  | poll => exact ⟨h.plane, h.highResolution, h.selected⟩

theorem performAll (h : AgreeOn p first second) (operations : List Operation) :
    AgreeOn p (first.performAll operations) (second.performAll operations) := by
  induction operations generalizing first second with
  | nil => exact h
  | cons operation operations ih => exact ih (h.perform operation)

end AgreeOn

theorem plane_onSelected_of_unselected {screen : Screen} {p : Fin 4}
    (h : screen.isSelected p = false) (change : Plane → Plane) :
    (screen.onSelected change).plane p = screen.plane p := by
  rw [plane_onSelected, h]
  rfl

theorem plane_perform_of_unselected {screen : Screen} {p : Fin 4}
    (h : screen.isSelected p = false) (operation : Operation) :
    (screen.perform operation).1.plane p = screen.plane p := by
  cases operation with
  | draw sprite x y wrap =>
    show (screen.draw sprite x y wrap).1.plane p = screen.plane p
    rw [plane_draw, drawnPlane, h]
    rfl
  | clear => exact plane_onSelected_of_unselected h _
  | scrollDown rows scaled => exact plane_onSelected_of_unselected h _
  | scrollUp rows scaled => exact plane_onSelected_of_unselected h _
  | scrollLeft scaled => exact plane_onSelected_of_unselected h _
  | scrollRight scaled => exact plane_onSelected_of_unselected h _
  | setResolution _ | selectPlanes _ | endBlank | poll => rfl

/-- Plane `p` is not selected when any of the operations is performed. The last of them may
select it. -/
def LeavesOut (p : Fin 4) : Screen → List Operation → Prop
  | _, [] => True
  | screen, operation :: operations =>
    screen.isSelected p = false ∧ LeavesOut p (screen.perform operation).1 operations

theorem LeavesOut.of_isPrefix {p : Fin 4} {screen : Screen} {operations passed : List Operation}
    (h : LeavesOut p screen operations) (hpassed : passed <+: operations) :
    LeavesOut p screen passed := by
  induction passed generalizing screen operations with
  | nil => trivial
  | cons operation passed ih =>
    obtain ⟨rest, rfl⟩ := hpassed
    exact ⟨h.1, ih h.2 (List.prefix_append passed rest)⟩

theorem LeavesOut.plane_performAll {p : Fin 4} {screen : Screen} {operations : List Operation}
    (h : LeavesOut p screen operations) :
    (screen.performAll operations).plane p = screen.plane p := by
  induction operations generalizing screen with
  | nil => rfl
  | cons operation operations ih =>
    rw [performAll_cons, ih h.2, plane_perform_of_unselected h.1]

/-- Screens that agree on a plane agree on it after any operations, whatever the other planes
show. A stretch of operations in which a plane is not selected leaves the plane alone from
beginning to end. -/
theorem planes_isolated (p : Fin 4) :
    (∀ (first second : Screen) (operations : List Operation), AgreeOn p first second →
      AgreeOn p (first.performAll operations) (second.performAll operations)) ∧
    ∀ (screen : Screen) (stretch passed : List Operation), LeavesOut p screen stretch →
      passed <+: stretch → (screen.performAll passed).plane p = screen.plane p := by
  constructor
  · intro first second operations hagree
    exact hagree.performAll operations
  · intro screen stretch passed hout hpassed
    exact (hout.of_isPrefix hpassed).plane_performAll

/-- A screen with a bar in plane 0 and four pixels below it. -/
def barred : Screen :=
  Screen.performAll { } [.draw ⟨8, 2, 1, [0xFF, 0xF0]⟩ 0 0 false]

/-- A draw in planes 0 and 2 that meets the bar, with a share of its own for plane 2. In the end
the other three planes are selected. -/
def pairedDraw : List Operation :=
  [.selectPlanes 5, .draw ⟨8, 2, 1, [0xAA, 0x55, 0x0F, 0xC3]⟩ 4 1 false, .scrollRight true,
    .selectPlanes 11]

/-- The other three planes are drawn, moved and cleared. -/
def otherPlanes : List Operation :=
  [.draw ⟨8, 1, 1, [0xFF, 0xFF, 0xFF]⟩ 60 31 true, .setResolution true, .scrollDown 3 false,
    .clear, .poll, .selectPlanes 4]

/-- Plane 2 comes out the same with and without the bar, and keeps what it shows while the
others are selected. -/
theorem planes_isolated_barred :
    AgreeOn 2 barred { } ∧ barred.plane 0 ≠ ({ } : Screen).plane 0 ∧
      AgreeOn 2 (barred.performAll pairedDraw) (Screen.performAll { } pairedDraw) ∧
      LeavesOut 2 (barred.performAll pairedDraw) otherPlanes ∧
      ((barred.performAll pairedDraw).performAll otherPlanes).plane 2 =
        (barred.performAll pairedDraw).plane 2 ∧
      ((barred.performAll pairedDraw).plane 2).litPixels ≠ [] := by
  have hagree : AgreeOn 2 barred { } := ⟨by decide +kernel, rfl, rfl⟩
  have hout : LeavesOut 2 (barred.performAll pairedDraw) otherPlanes := by
    simp only [otherPlanes, LeavesOut]
    decide +kernel
  obtain ⟨hruns, hstretch⟩ := planes_isolated 2
  refine ⟨hagree, by decide +kernel, hruns _ _ pairedDraw hagree, hout, ?_, by decide +kernel⟩
  exact hstretch _ otherPlanes otherPlanes hout List.prefix_rfl

end ChipEight.Screen
