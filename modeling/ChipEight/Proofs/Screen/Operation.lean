import ChipEight.Screen
import ChipEight.Proofs.Screen.SpriteBits
import Mathlib.Data.List.FinRange

/-!
The operations of a screen as values, and the course of a screen under a list of them.
-/

namespace ChipEight.Screen

inductive Operation where
  | draw (sprite : Sprite) (x y : UInt8) (wrap : Bool)
  | clear
  | setResolution (high : Bool)
  | selectPlanes (mask : UInt8)
  | scrollDown (rows : UInt8) (scaled : Bool)
  | scrollUp (rows : UInt8) (scaled : Bool)
  | scrollLeft (scaled : Bool)
  | scrollRight (scaled : Bool)
  | endBlank
  | poll
  deriving DecidableEq, Repr

/-- The screen after an operation, beside the count that a draw returns. -/
def perform (screen : Screen) : Operation → Screen × Option Nat
  | .draw sprite x y wrap =>
    let (drawn, hits) := screen.draw sprite x y wrap
    (drawn, some hits)
  | .clear => (screen.clear, none)
  | .setResolution high => (screen.setResolution high, none)
  | .selectPlanes mask => (screen.selectPlanes mask.toNat, none)
  | .scrollDown rows scaled => (screen.scrollDown rows.toNat scaled, none)
  | .scrollUp rows scaled => (screen.scrollUp rows.toNat scaled, none)
  | .scrollLeft scaled => (screen.scrollLeft scaled, none)
  | .scrollRight scaled => (screen.scrollRight scaled, none)
  | .endBlank => (screen.endBlank, none)
  | .poll => (screen.poll.1, none)

/-- What `perform` gives for one operation after another. -/
def course (screen : Screen) : List Operation → List (Screen × Option Nat)
  | [] => []
  | operation :: operations =>
    let after := screen.perform operation
    after :: after.1.course operations

/-- The shares of a sprite for all selected planes can be counted. -/
def Deals (screen : Screen) (sprite : Sprite) : Prop :=
  ∀ p : Fin 4, screen.isSelected p = true → sprite.Fits (screen.selectedBefore p)

instance (screen : Screen) (sprite : Sprite) : Decidable (screen.Deals sprite) :=
  inferInstanceAs (Decidable (∀ _ : Fin 4, _ → _))

/-- A sprite that the operation draws can be dealt out to the planes. -/
def Operation.IsDealt (screen : Screen) : Operation → Prop
  | .draw sprite _ _ _ => screen.Deals sprite
  | _ => True

instance (screen : Screen) : (operation : Operation) → Decidable (operation.IsDealt screen)
  | .draw sprite _ _ _ => inferInstanceAs (Decidable (screen.Deals sprite))
  | .clear | .setResolution _ | .selectPlanes _ | .endBlank | .poll => isTrue trivial
  | .scrollDown _ _ | .scrollUp _ _ | .scrollLeft _ | .scrollRight _ => isTrue trivial

/-- Every sprite can be dealt out to the planes that are selected by then. -/
def AllDealt : Screen → List Operation → Prop
  | _, [] => True
  | screen, operation :: operations =>
    operation.IsDealt screen ∧ AllDealt (screen.perform operation).1 operations

instance decidableAllDealt (screen : Screen) :
    (operations : List Operation) → Decidable (AllDealt screen operations)
  | [] => isTrue trivial
  | operation :: operations =>
    have := decidableAllDealt (screen.perform operation).1 operations
    inferInstanceAs (Decidable (_ ∧ _))

theorem plane_onSelected (screen : Screen) (change : Plane → Plane) (p : Fin 4) :
    (screen.onSelected change).plane p =
      if screen.isSelected p then change (screen.plane p) else screen.plane p := by
  simp [onSelected, plane]

theorem plane_draw (screen : Screen) (sprite : Sprite) (x y : UInt8) (wrap : Bool)
    (p : Fin 4) :
    (screen.draw sprite x y wrap).1.plane p =
      (screen.drawnPlane sprite x.toNat y.toNat wrap p).1 := by
  simp [draw, plane]

theorem hits_draw (screen : Screen) (sprite : Sprite) (x y : UInt8) (wrap : Bool) :
    (screen.draw sprite x y wrap).2 =
      (List.finRange 4).foldl
        (fun hits p => hits + (screen.drawnPlane sprite x.toNat y.toNat wrap p).2) 0 := by
  rw [draw, ← Vector.foldl_toList, Vector.toList_ofFn, List.ofFn_eq_map, List.foldl_map]

end ChipEight.Screen
