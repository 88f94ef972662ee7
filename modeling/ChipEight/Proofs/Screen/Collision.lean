import ChipEight.Proofs.Checked.Machine
import ChipEight.Proofs.Screen.Overlay
import Mathlib.Data.Nat.ModEq

/-!
Collisions of sprites. A draw counts the blocks that it finds lit while it is already flipping
others. As long as no block is visited twice, these are the blocks that were lit before, and each
pixel lit in them goes dark. A sprite no larger than the screen visits none twice, also where it
wraps around, and the sprites of a program are no larger than any screen.
-/

namespace ChipEight

section Landings

variable {width height x y : Nat} {wrap : Bool}

/-- Also without wrapping around, a bit falls where it would fall with it. -/
theorem Sprite.wrapped_of_landing {bit target : Nat × Nat}
    (h : landing width height x y wrap bit = some target) :
    target.1 = (x % width + bit.1) % width ∧ target.2 = (y % height + bit.2) % height := by
  unfold landing at h
  dsimp only at h
  split at h
  · cases h
    exact ⟨rfl, rfl⟩
  · split at h
    · next hinside =>
      cases h
      exact ⟨(Nat.mod_eq_of_lt hinside.1).symm, (Nat.mod_eq_of_lt hinside.2).symm⟩
    · cases h

theorem Sprite.eq_of_landing {first second target : Nat × Nat}
    (hfirst : landing width height x y wrap first = some target)
    (hsecond : landing width height x y wrap second = some target)
    (hwidth : first.1 < width ∧ second.1 < width) (hheight : first.2 < height ∧ second.2 < height) :
    first = second := by
  obtain ⟨hcolumn, hrow⟩ := wrapped_of_landing hfirst
  obtain ⟨hcolumn', hrow'⟩ := wrapped_of_landing hsecond
  have hcolumns : first.1 ≡ second.1 [MOD width] :=
    Nat.ModEq.add_left_cancel' (x % width) (hcolumn.symm.trans hcolumn')
  have hrows : first.2 ≡ second.2 [MOD height] :=
    Nat.ModEq.add_left_cancel' (y % height) (hrow.symm.trans hrow')
  exact Prod.ext (hcolumns.eq_of_lt_of_lt hwidth.1 hwidth.2)
    (hrows.eq_of_lt_of_lt hheight.1 hheight.2)

end Landings

namespace Screen

section Blocks

variable {scale : Nat}

theorem isBlockLit_flipBlock_of_ne (hscale : 0 < scale) {target other : Nat × Nat}
    (hne : other ≠ target) (htarget : OnRaster scale target) (hother : OnRaster scale other)
    (drawn : Plane × Nat) :
    isBlockLit scale (flipBlock scale drawn target).1 other = isBlockLit scale drawn.1 other := by
  rw [Bool.eq_iff_iff, isBlockLit_iff hscale hother, isBlockLit_iff hscale hother]
  refine exists_congr fun column => exists_congr fun row => and_congr_right fun hinside => ?_
  have houtside : ¬ InBlock scale target column row := fun h =>
    hne (Prod.ext (hinside.1.symm.trans h.1) (hinside.2.symm.trans h.2))
  rw [pixel_flipBlock hscale htarget, decide_eq_false houtside, Bool.xor_false]

/-- Blocks that are all different are found as they were at the start. -/
theorem hits_foldl_flipBlock (hscale : 0 < scale) {targets : List (Nat × Nat)}
    (honRaster : ∀ target ∈ targets, OnRaster scale target) (hnodup : targets.Nodup)
    (drawn : Plane × Nat) :
    (targets.foldl (flipBlock scale) drawn).2 =
      drawn.2 + targets.countP (isBlockLit scale drawn.1) := by
  induction targets generalizing drawn with
  | nil => rfl
  | cons target targets ih =>
    obtain ⟨hfirst, hrest⟩ := List.nodup_cons.mp hnodup
    have honRaster' : ∀ other ∈ targets, OnRaster scale other := fun other hother =>
      honRaster other (List.mem_cons_of_mem _ hother)
    have hothers : targets.countP (isBlockLit scale (flipBlock scale drawn target).1) =
        targets.countP (isBlockLit scale drawn.1) := by
      refine List.countP_congr fun other hother => ?_
      have hne : other ≠ target := fun h => hfirst (h ▸ hother)
      rw [isBlockLit_flipBlock_of_ne hscale hne (honRaster target List.mem_cons_self)
        (honRaster' other hother)]
    have hhits : (flipBlock scale drawn target).2 =
        if isBlockLit scale drawn.1 target then drawn.2 + 1 else drawn.2 := rfl
    rw [List.foldl_cons, ih honRaster' hrest, hothers, List.countP_cons, hhits]
    split <;> omega

/-- A lit pixel goes dark exactly if its block is visited. -/
theorem dark_foldl_flipBlock_iff (hscale : 0 < scale) {targets : List (Nat × Nat)}
    (honRaster : ∀ target ∈ targets, OnRaster scale target) (hnodup : targets.Nodup)
    (drawn : Plane × Nat) {column row : Nat} (hlit : drawn.1.pixel column row = true) :
    (targets.foldl (flipBlock scale) drawn).1.pixel column row = false ↔
      (column / scale, row / scale) ∈ targets := by
  rw [pixel_foldl_flipBlock hscale honRaster, hnodup.count, hlit]
  split <;> simp [*]

end Blocks

theorem foldl_add_pos_iff {α : Type} (hits : α → Nat) (items : List α) (start : Nat) :
    0 < items.foldl (fun sum item => sum + hits item) start ↔
      0 < start ∨ ∃ item ∈ items, 0 < hits item := by
  induction items generalizing start with
  | nil => simp
  | cons item items ih =>
    rw [List.foldl_cons, ih, Nat.add_pos_iff_pos_or_pos, or_assoc]
    simp only [List.mem_cons, exists_eq_or_imp]

section Draws

variable (screen : Screen) {sprite : Sprite} (x y : Nat) (wrap : Bool)

theorem nodup_targets (hwidth : sprite.width ≤ screen.width)
    (hheight : sprite.height ≤ screen.height) {p : Nat}
    (hfits : sprite.Fits (screen.selectedBefore p)) :
    (screen.targets sprite x y wrap p).Nodup := by
  refine List.nodup_iff_count_le_one.mpr fun target => ?_
  rw [screen.count_targets _ _ _ hfits, Finset.card_le_one]
  intro first hfirst second hsecond
  simp only [covering, Finset.mem_filter, Finset.mem_product, Finset.mem_range, lt_min_iff]
    at hfirst hsecond
  exact Sprite.eq_of_landing hfirst.2.2 hsecond.2.2 ⟨by omega, by omega⟩ ⟨by omega, by omega⟩

/-- A plane is hit exactly if a pixel of it goes dark. -/
theorem hits_drawnPlane_pos_iff (hwidth : sprite.width ≤ screen.width)
    (hheight : sprite.height ≤ screen.height) (hdeals : screen.Deals sprite) (p : Fin 4) :
    0 < (screen.drawnPlane sprite x y wrap p).2 ↔
      ∃ column row, (screen.plane p).pixel column row = true ∧
        (screen.drawnPlane sprite x y wrap p).1.pixel column row = false := by
  obtain ⟨hscale, -⟩ := Checked.size_scale screen
  have honRaster := screen.onRaster_targets sprite x y wrap p
  rw [drawnPlane]
  split
  · next hselected =>
    have hnodup := screen.nodup_targets x y wrap hwidth hheight (hdeals p hselected)
    rw [hits_foldl_flipBlock hscale honRaster hnodup, Nat.zero_add, List.countP_pos_iff]
    constructor
    · intro h
      obtain ⟨target, htarget, hhit⟩ := h
      obtain ⟨column, row, hinside, hlit⟩ :=
        (isBlockLit_iff hscale (honRaster target htarget) _).mp hhit
      have hsame : (column / screen.scale, row / screen.scale) = target :=
        Prod.ext hinside.1 hinside.2
      have hvisited : (column / screen.scale, row / screen.scale) ∈
          screen.targets sprite x y wrap p := by rwa [hsame]
      exact ⟨column, row, hlit,
        (dark_foldl_flipBlock_iff hscale honRaster hnodup (screen.plane p, 0) hlit).mpr hvisited⟩
    · intro h
      obtain ⟨column, row, hlit, hafter⟩ := h
      have htarget :=
        (dark_foldl_flipBlock_iff hscale honRaster hnodup (screen.plane p, 0) hlit).mp hafter
      exact ⟨_, htarget, (isBlockLit_iff hscale (honRaster _ htarget) _).mpr
        ⟨column, row, ⟨rfl, rfl⟩, hlit⟩⟩
  · simp

end Draws

/-- Some pixel of some plane is lit before and dark after. -/
def Darkens (before after : Screen) : Prop :=
  ∃ (p : Fin 4) (column row : Nat),
    (before.plane p).pixel column row = true ∧ (after.plane p).pixel column row = false

theorem hits_draw_pos_iff (screen : Screen) {sprite : Sprite} (x y : UInt8) (wrap : Bool)
    (hwidth : sprite.width ≤ screen.width) (hheight : sprite.height ≤ screen.height)
    (hdeals : screen.Deals sprite) :
    0 < (screen.draw sprite x y wrap).2 ↔ screen.Darkens (screen.draw sprite x y wrap).1 := by
  rw [hits_draw, foldl_add_pos_iff, Darkens]
  simp only [Nat.lt_irrefl, false_or, List.mem_finRange, true_and, plane_draw,
    hits_drawnPlane_pos_iff screen x.toNat y.toNat wrap hwidth hheight hdeals]

end Screen

theorem Processor.get_setFlag (cpu : Processor) (flag : Bool) :
    (cpu.setFlag flag).get flagRegister = if flag then 1 else 0 := by
  simp [setFlag, get, set]

namespace Machine

theorem width_spriteAtIndex_le (machine : Machine) (rows : Nibble) :
    (machine.spriteAtIndex rows).width ≤ 16 := by
  unfold spriteAtIndex
  by_cases hrows : rows = 0
  · rw [if_pos hrows]
  · rw [if_neg hrows]
    exact Nat.le_add_right 8 8

/-- The flag is set exactly if the draw turned off a pixel. The sprite is placed by the registers
as they were, even if one of them is that of the flag. -/
theorem flag_tells_collision (machine : Machine) (x y : Register) (rows : Nibble) :
    ∃ after, machine.execute (.draw x y rows) = .done after ∧
      after.screen = (machine.screen.draw (machine.spriteAtIndex rows) (machine.cpu.get x)
        (machine.cpu.get y) machine.cpu.dialect.wrapSprites).1 ∧
      (after.cpu.get Processor.flagRegister = 1 ↔ machine.screen.Darkens after.screen) ∧
      (after.cpu.get Processor.flagRegister = 0 ↔ ¬ machine.screen.Darkens after.screen) := by
  have hwidth := machine.width_spriteAtIndex_le rows
  obtain ⟨-, hfits⟩ := Checked.spriteAtIndex_eq machine rows
  have hscreen : 64 ≤ machine.screen.width ∧ 32 ≤ machine.screen.height := by
    simp only [Screen.width, Screen.height]
    split <;> decide
  have hhits := machine.screen.hits_draw_pos_iff (machine.cpu.get x) (machine.cpu.get y)
    machine.cpu.dialect.wrapSprites (Nat.le_trans hwidth (by omega))
    (Nat.le_trans hfits.height_le (by omega)) (hfits.deals machine.screen)
  have hflag : (machine.draw x y rows).cpu.get Processor.flagRegister =
      if decide (0 < (machine.screen.draw (machine.spriteAtIndex rows) (machine.cpu.get x)
        (machine.cpu.get y) machine.cpu.dialect.wrapSprites).2) then 1 else 0 :=
    Processor.get_setFlag machine.cpu _
  refine ⟨machine.draw x y rows, rfl, rfl, ?_⟩
  by_cases hdarkens : machine.screen.Darkens (machine.draw x y rows).screen
  · rw [decide_eq_true (hhits.mpr hdarkens), if_pos rfl] at hflag
    exact ⟨iff_of_true hflag hdarkens,
      iff_of_false (by rw [hflag]; decide) (not_not_intro hdarkens)⟩
  · rw [decide_eq_false (mt hhits.mp hdarkens), if_neg Bool.false_ne_true] at hflag
    exact ⟨iff_of_false (by rw [hflag]; decide) hdarkens, iff_of_true hflag hdarkens⟩

end Machine

end ChipEight
