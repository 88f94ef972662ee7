import ChipEight.Proofs.Checked.Operands
import ChipEight.Proofs.Checked.Raster
import ChipEight.Proofs.Screen.Operation

/-!
Draws and scrolls with every operation checked: the choice of the planes by a shifted mask, the
place of every bit of a sprite, and the count of the blocks found lit.
-/

namespace ChipEight

namespace Checked

section Planes

variable {State : Type}

/-- What a loop over the planes has done so far, and how many of them were selected. -/
structure Pass (State : Type) where
  planes : Vector Plane 4
  ordinal : Nat
  state : State

def visitPlane (selected : BitVec 4) (visit : Nat → Plane → State → Checked (Plane × State))
    (pass : Pass State) (p : Nat) : Checked (Pass State) := do
  let mask ← shiftRight .byte selected.toNat p
  if mask &&& 1 = 1 then
    let plane ← get pass.planes p
    let visited ← visit pass.ordinal plane pass.state
    let planes ← set pass.planes p visited.1
    return { planes, ordinal := pass.ordinal + 1, state := visited.2 }
  else return pass

/-- Changes the selected planes one after another. -/
def eachSelected (screen : Screen) (visit : Nat → Plane → State → Checked (Plane × State))
    (state : State) : Checked (Vector Plane 4 × State) := do
  let start : Pass State := { planes := screen.planes, ordinal := 0, state }
  let pass ← (List.range 4).foldlM (visitPlane screen.selected visit) start
  return (pass.planes, pass.state)

/-- The state before plane `p` is visited. -/
def stateBefore (screen : Screen) (after : Fin 4 → State → Plane × State) (state : State) :
    Nat → State
  | 0 => state
  | p + 1 =>
    let reached := stateBefore screen after state p
    if h : p < 4 then
      if screen.isSelected p then (after ⟨p, h⟩ reached).2 else reached
    else reached

theorem isSelected_iff (screen : Screen) (p : Nat) :
    screen.selected.toNat >>> p &&& 1 = 1 ↔ screen.isSelected p = true := by
  rw [Screen.isSelected, BitVec.getLsbD, Nat.testBit, Nat.one_and_eq_mod_two, Nat.and_one_is_mod]
  simp only [bne_iff_ne]
  omega

theorem selectedBefore_succ (screen : Screen) (p : Nat) :
    screen.selectedBefore (p + 1) =
      screen.selectedBefore p + if screen.isSelected p then 1 else 0 := by
  rw [Screen.selectedBefore, List.range_succ, List.countP_append, List.countP_singleton]
  rfl

/-- What the loop has done before plane `k`. -/
structure Reached (screen : Screen) (after : Fin 4 → State → Plane × State) (start : State)
    (k : Nat) (pass : Pass State) : Prop where
  state : pass.state = stateBefore screen after start k
  ordinal : pass.ordinal = screen.selectedBefore k
  planes : ∀ p : Fin 4, pass.planes.get p =
    if p.val < k ∧ screen.isSelected p then (after p (stateBefore screen after start p)).1
    else screen.plane p

section Loop

variable {screen : Screen} {visit : Nat → Plane → State → Checked (Plane × State)}
  {after : Fin 4 → State → Plane × State} {start : State}

theorem visitPlane_eq (p : Fin 4)
    (hvisit : screen.isSelected p = true →
      visit (screen.selectedBefore p) (screen.plane p) (stateBefore screen after start p) =
        .ok (after p (stateBefore screen after start p)))
    {pass : Pass State} (hreached : Reached screen after start p pass) :
    ∃ next, visitPlane screen.selected visit pass p = .ok next ∧
      Reached screen after start (p + 1) next := by
  obtain ⟨hstate, hordinal, hplanes⟩ := hreached
  have hbits : p.val < Width.bits .byte := Nat.lt_of_lt_of_le p.isLt (by decide)
  have hplane : pass.planes.get p = screen.plane p := by simp [hplanes]
  rw [visitPlane, shiftRight_eq hbits, ok_bind]
  cases hselected : screen.isSelected p with
  | false =>
    rw [if_neg (by rw [isSelected_iff, hselected]; decide)]
    refine ⟨pass, rfl, ?_, ?_, ?_⟩
    · simp [stateBefore, hstate, hselected]
    · rw [selectedBefore_succ, hselected, hordinal]
      rfl
    · intro q
      rw [hplanes]
      refine if_congr (and_congr_left fun hq => ?_) rfl rfl
      have hne : q ≠ p := fun h => by simp [h, hselected] at hq
      have hval := Fin.val_ne_of_ne hne
      omega
  | true =>
    rw [if_pos (by rw [isSelected_iff, hselected]), get_eq, ok_bind, hordinal, hplane, hstate,
      hvisit hselected, ok_bind, set_eq, ok_bind]
    refine ⟨_, rfl, ?_, ?_, ?_⟩
    · simp [stateBefore, hselected]
    · rw [selectedBefore_succ, hselected]
      rfl
    · intro q
      show (pass.planes.set p.val _)[q.val] = _
      rw [Vector.getElem_set]
      by_cases hsame : p = q
      · subst hsame
        rw [if_pos rfl, if_pos ⟨Nat.lt_succ_self _, hselected⟩]
      · have hval := Fin.val_ne_of_ne hsame
        rw [if_neg hval]
        refine (hplanes q).trans (if_congr (and_congr_left fun _ => ?_) rfl rfl)
        omega

theorem eachSelected_eq
    (hvisit : ∀ p : Fin 4, screen.isSelected p = true →
      visit (screen.selectedBefore p) (screen.plane p) (stateBefore screen after start p) =
        .ok (after p (stateBefore screen after start p))) :
    eachSelected screen visit start =
      .ok (Vector.ofFn fun p => if screen.isSelected p then
          (after p (stateBefore screen after start p)).1 else screen.plane p,
        stateBefore screen after start 4) := by
  have hstart : Reached screen after start 0
      { planes := screen.planes, ordinal := 0, state := start } :=
    { state := rfl, ordinal := rfl, planes := fun p => (if_neg (by simp)).symm }
  obtain ⟨pass, hloop, hstate, -, hplanes⟩ := foldlM_spec (Reached screen after start)
    (fun i reached p hp hreached => by
      obtain ⟨hlt, rfl⟩ := List.getElem?_eq_some_iff.mp hp
      rw [List.length_range] at hlt
      rw [List.getElem_range]
      exact visitPlane_eq ⟨i, hlt⟩ (hvisit ⟨i, hlt⟩) hreached) hstart
  rw [eachSelected, hloop, ok_bind, pure_eq_ok]
  refine congrArg Except.ok (Prod.ext (Vector.ext fun p hp => ?_) hstate)
  rw [Vector.getElem_ofFn]
  exact (hplanes ⟨p, hp⟩).trans (if_congr (and_iff_right hp) rfl rfl)

end Loop

end Planes

def onSelected (screen : Screen) (change : Plane → Checked Plane) : Checked Screen := do
  let changed ← eachSelected screen (fun _ plane _ => do
    let plane ← change plane
    return (plane, ())) ()
  return { screen with planes := changed.1, changed := true }

def scrollDistance (screen : Screen) (distance : Nat) (scaled : Bool) : Checked Nat :=
  if scaled then mul .size distance screen.scale else pure distance

/-- Scrolls by the given rows, or to a side. -/
def scroll (screen : Screen) (scaled : Bool) (rows : Nat) (move : Scroll) : Checked Screen := do
  match move with
  | .down _ =>
    let distance ← scrollDistance screen rows scaled
    onSelected screen (scrollDown · distance)
  | .up _ =>
    let distance ← scrollDistance screen rows scaled
    onSelected screen (scrollUp · distance)
  | .right =>
    let distance ← scrollDistance screen Screen.sideStep scaled
    onSelected screen (scrollRight · distance)
  | .left =>
    let distance ← scrollDistance screen Screen.sideStep scaled
    onSelected screen (scrollLeft · distance)

section Scrolls

variable (screen : Screen)

theorem onSelected_eq {change : Plane → Checked Plane} {next : Plane → Plane}
    (h : ∀ plane, change plane = .ok (next plane)) :
    onSelected screen change = .ok (screen.onSelected next) := by
  have hplanes := @eachSelected_eq Unit screen
    (fun _ plane _ => do
      let plane ← change plane
      return (plane, ()))
    (fun p _ => (next (screen.plane p), ())) () fun p _ => by rw [h, ok_bind, pure_eq_ok]
  rw [onSelected, hplanes, ok_bind, pure_eq_ok]
  rfl

theorem scale_le : screen.scale ≤ 2 := by
  unfold Screen.scale
  split <;> decide

theorem scrollDistance_eq {distance : Nat} (h : distance ≤ 15) (scaled : Bool) :
    scrollDistance screen distance scaled = .ok (screen.scrollDistance distance scaled) := by
  have hbound : distance * screen.scale ≤ 15 * 2 := Nat.mul_le_mul h (scale_le screen)
  cases scaled with
  | true => exact mul_size (Nat.lt_of_le_of_lt hbound (by decide))
  | false => rfl

theorem scroll_eq (scaled : Bool) {operands : Operands} {move : Scroll}
    (hmove : operands.MatchesScroll move) :
    scroll screen scaled operands.n move = .ok (screen.scroll scaled move) := by
  cases move with
  | down rows =>
    have hrows : rows.val = operands.n := hmove
    rw [scroll, ← hrows, scrollDistance_eq screen (Nat.le_of_lt_succ rows.isLt), ok_bind]
    exact onSelected_eq screen fun plane => scrollDown_eq plane _
  | up rows =>
    have hrows : rows.val = operands.n := hmove
    rw [scroll, ← hrows, scrollDistance_eq screen (Nat.le_of_lt_succ rows.isLt), ok_bind]
    exact onSelected_eq screen fun plane => scrollUp_eq plane _
  | right =>
    rw [scroll, scrollDistance_eq screen (by decide), ok_bind]
    exact onSelected_eq screen fun plane => scrollRight_eq plane _
  | left =>
    rw [scroll, scrollDistance_eq screen (by decide), ok_bind]
    exact onSelected_eq screen fun plane => scrollLeft_eq plane _

end Scrolls

/-- Where a sprite goes on a screen, worked out once for all of its bits. -/
structure Place where
  width : Nat
  height : Nat
  scale : Nat
  left : Nat
  top : Nat
  wraps : Bool

/-- The logical pixel for a bit of a sprite. -/
def target? (place : Place) (column row : Nat) : Checked (Option (Nat × Nat)) := do
  let x ← add .size place.left column
  let y ← add .size place.top row
  if x < place.width ∧ y < place.height then return some (x, y)
  else if place.wraps then
    let x ← rem x place.width
    let y ← rem y place.height
    return some (x, y)
  else return none

def drawBlock (scale : Nat) (drawn : Plane × Nat) (pixel : Nat × Nat) : Checked (Plane × Nat) := do
  let x ← mul .size pixel.1 scale
  let y ← mul .size pixel.2 scale
  let toggled ← toggleBlock drawn.1 x y scale
  let hits ← if toggled.2 then add .size drawn.2 1 else pure drawn.2
  return (toggled.1, hits)

def drawBit (place : Place) (width : Nat) (byte : UInt8) (base row : Nat) (drawn : Plane × Nat)
    (bit : Nat) : Checked (Plane × Nat) := do
  let column ← add .size base bit
  let mask ← shiftRight .byte 0x80 bit
  if width ≤ column ∨ byte.toNat &&& mask = 0 then return drawn
  else
    let pixel? ← target? place column row
    match pixel? with
    | some pixel => drawBlock place.scale drawn pixel
    | none => return drawn

def drawByte (place : Place) (sprite : Sprite) (drawn : Plane × Nat) (item : UInt8 × Nat) :
    Checked (Plane × Nat) := do
  let row ← div item.2 sprite.bytesPerRow
  let cell ← rem item.2 sprite.bytesPerRow
  let base ← mul .size cell 8
  (List.range 8).foldlM (drawBit place sprite.width item.1 base row) drawn

/-- Draws the bytes for one plane. Missing bytes at the end are blank. -/
def drawPlane (place : Place) (sprite : Sprite) (length ordinal : Nat) (plane : Plane)
    (hits : Nat) : Checked (Plane × Nat) := do
  let start ← mul .size ordinal length
  let bytes := (sprite.data.drop start).take length
  bytes.zipIdx.foldlM (drawByte place sprite) (plane, hits)

/-- Draws a sprite and counts the logical pixels found lit. -/
def draw (screen : Screen) (sprite : Sprite) (x y : Nat) (wrap : Bool) :
    Checked (Screen × Nat) := do
  let left ← rem x screen.width
  let top ← rem y screen.height
  let length ← mul .size sprite.height sprite.bytesPerRow
  let place : Place :=
    { width := screen.width
      height := screen.height
      scale := screen.scale
      left, top
      wraps := wrap || screen.width ≤ x || screen.height ≤ y }
  let drawn ← eachSelected screen (drawPlane place sprite length) 0
  return ({ screen with planes := drawn.1, changed := true, awaitingBlank := true }, drawn.2)

section Draws

theorem target?_eq (place : Place) {column row : Nat} (hwidth : 0 < place.width)
    (hheight : 0 < place.height) (hcolumn : place.left + column < 65536)
    (hrow : place.top + row < 65536) :
    target? place column row =
      .ok (if place.left + column < place.width ∧ place.top + row < place.height then
          some (place.left + column, place.top + row)
        else if place.wraps then
          some ((place.left + column) % place.width, (place.top + row) % place.height)
        else none) := by
  rw [target?, add_size hcolumn, ok_bind, add_size hrow, ok_bind, rem_eq hwidth, ok_bind,
    rem_eq hheight, ok_bind]
  split
  · rfl
  · split <;> rfl

/-- The sprite of a draw is two bytes wide and sixteen rows high at most. -/
structure FitsDraw (sprite : Sprite) : Prop where
  height_le : sprite.height ≤ 16
  bytesPerRow_pos : 0 < sprite.bytesPerRow
  bytesPerRow_le : sprite.bytesPerRow ≤ 2

/-- The place of a sprite with the given origin. -/
def placeOf (screen : Screen) (x y : Nat) (wrap : Bool) : Place :=
  { width := screen.width
    height := screen.height
    scale := screen.scale
    left := x % screen.width
    top := y % screen.height
    wraps := wrap || screen.width ≤ x || screen.height ≤ y }

variable (screen : Screen) (x y : Nat) (wrap : Bool)

theorem size_scale : 0 < screen.scale ∧ screen.width * screen.scale = 128 ∧
    screen.height * screen.scale = 64 := by
  simp only [Screen.scale, Screen.width, Screen.height]
  split <;> decide

theorem size_pos : (0 < screen.width ∧ screen.width ≤ 128) ∧
    (0 < screen.height ∧ screen.height ≤ 64) := by
  simp only [Screen.width, Screen.height]
  split <;> decide

theorem target?_placeOf {column row : Nat} (hcolumn : column < 32) (hrow : row < 32) :
    target? (placeOf screen x y wrap) column row =
      .ok (Sprite.destination screen.width screen.height x y wrap (column, row)) := by
  obtain ⟨hwidth, hheight⟩ := size_pos screen
  have hx := Nat.mod_lt x hwidth.1
  have hy := Nat.mod_lt y hheight.1
  exact target?_eq (placeOf screen x y wrap) hwidth.1 hheight.1
    (by simp only [placeOf]; omega) (by simp only [placeOf]; omega)

theorem destination_lt {pixel goal : Nat × Nat}
    (h : Sprite.destination screen.width screen.height x y wrap pixel = some goal) :
    goal.1 < screen.width ∧ goal.2 < screen.height := by
  obtain ⟨hwidth, hheight⟩ := size_pos screen
  unfold Sprite.destination at h
  dsimp only at h
  split at h
  · next hinside =>
    cases h
    exact hinside
  · split at h
    · cases h
      exact ⟨Nat.mod_lt _ hwidth.1, Nat.mod_lt _ hheight.1⟩
    · cases h

/-- The block of a pixel of the screen is on the raster. -/
theorem onRaster {pixel : Nat × Nat} (hcolumn : pixel.1 < screen.width)
    (hrow : pixel.2 < screen.height) : Screen.OnRaster screen.scale pixel := by
  obtain ⟨-, hwidth, hheight⟩ := size_scale screen
  rw [Screen.OnRaster, ← Nat.succ_mul, ← Nat.succ_mul, ← hwidth, ← hheight]
  exact ⟨Nat.mul_le_mul_right _ hcolumn, Nat.mul_le_mul_right _ hrow⟩

theorem drawBlock_eq {pixel : Nat × Nat} (hcolumn : pixel.1 < screen.width)
    (hrow : pixel.2 < screen.height) {drawn : Plane × Nat}
    (hhits : drawn.2 + 1 < 65536) :
    drawBlock screen.scale drawn pixel = .ok (Screen.flipBlock screen.scale drawn pixel) ∧
      (Screen.flipBlock screen.scale drawn pixel).2 ≤ drawn.2 + 1 := by
  obtain ⟨hscale, -⟩ := size_scale screen
  have honRaster := onRaster screen hcolumn hrow
  have ⟨hx, hy⟩ := honRaster
  obtain ⟨wasLit, htoggle, hcount⟩ := toggleBlock_eq hscale honRaster drawn
  rw [drawBlock, mul_size (by omega), ok_bind,
    mul_size (by omega), ok_bind, htoggle, ok_bind]
  cases wasLit with
  | true =>
    rw [if_pos rfl] at hcount
    rw [if_pos rfl, add_size hhits, ok_bind, hcount]
    exact ⟨congrArg Except.ok (Prod.ext rfl hcount.symm), Nat.le_refl _⟩
  | false =>
    rw [if_neg Bool.false_ne_true] at hcount
    rw [if_neg Bool.false_ne_true, pure_eq_ok, ok_bind, hcount]
    exact ⟨congrArg Except.ok (Prod.ext rfl hcount.symm), Nat.le_succ _⟩

/-- A lit pixel of a sprite flips the block where it falls, if any. -/
def flipTarget (drawn : Plane × Nat) (pixel : Nat × Nat) : Plane × Nat :=
  match Sprite.destination screen.width screen.height x y wrap pixel with
  | some goal => Screen.flipBlock screen.scale drawn goal
  | none => drawn

theorem and_mask_eq_zero_iff : ∀ (byte : Fin 256) (bit : Fin 8),
    byte.val &&& 0x80 >>> bit.val = 0 ↔ (BitVec.ofFin byte : BitVec 8).getMsbD bit.val = false := by
  decide +kernel

/-- One bit of a byte that is at the given row and column base of the sprite. -/
theorem drawBit_eq (width : Nat) (byte : UInt8) {base row bit : Nat} (hbase : base ≤ 8)
    (hrow : row < 32) (hbit : bit < 8) {drawn : Plane × Nat}
    (hhits : drawn.2 + 1 < 65536) :
    drawBit (placeOf screen x y wrap) width byte base row drawn bit =
        .ok (if base + bit < width ∧ byte.toBitVec.getMsbD bit = true then
          flipTarget screen x y wrap drawn (base + bit, row) else drawn) ∧
      (if base + bit < width ∧ byte.toBitVec.getMsbD bit = true then
        flipTarget screen x y wrap drawn (base + bit, row) else drawn).2 ≤ drawn.2 + 1 := by
  have hmask : byte.toNat &&& 0x80 >>> bit = 0 ↔ byte.toBitVec.getMsbD bit = false :=
    and_mask_eq_zero_iff byte.toBitVec.toFin ⟨bit, hbit⟩
  rw [drawBit, add_size (by omega), ok_bind, shiftRight_eq hbit, ok_bind]
  by_cases hlit : base + bit < width ∧ byte.toBitVec.getMsbD bit = true
  · have hdrawn : ¬ (width ≤ base + bit ∨ byte.toNat &&& 0x80 >>> bit = 0) := by
      rw [hmask, hlit.2]
      simp only [Bool.true_eq_false, or_false]
      omega
    rw [if_pos hlit, if_neg hdrawn, target?_placeOf _ _ _ _ (by omega) hrow, ok_bind, flipTarget]
    cases hgoal : Sprite.destination screen.width screen.height x y wrap (base + bit, row) with
    | some goal =>
      obtain ⟨hcolumn, hrow⟩ := destination_lt _ _ _ _ hgoal
      exact drawBlock_eq screen hcolumn hrow hhits
    | none => exact ⟨rfl, Nat.le_succ _⟩
  · have hskipped : width ≤ base + bit ∨ byte.toNat &&& 0x80 >>> bit = 0 := by
      rw [hmask, ← Bool.not_eq_true]
      exact (Decidable.not_and_iff_not_or_not.mp hlit).imp_left Nat.le_of_not_lt
    rw [if_neg hlit, if_pos hskipped]
    exact ⟨rfl, Nat.le_succ _⟩

theorem litInByte_foldl (sprite : Sprite) (byte : UInt8) (position : Nat)
    (next : Plane × Nat → Nat × Nat → Plane × Nat) (drawn : Plane × Nat) :
    (sprite.litInByte byte position).foldl next drawn =
      (List.range 8).foldl (fun drawn bit =>
        if position % sprite.bytesPerRow * 8 + bit < sprite.width ∧
            byte.toBitVec.getMsbD bit = true then
          next drawn (position % sprite.bytesPerRow * 8 + bit, position / sprite.bytesPerRow)
        else drawn) drawn := by
  rw [Sprite.litInByte, List.foldl_filterMap]
  refine List.foldl_ext _ _ _ fun drawn bit _ => ?_
  dsimp only
  by_cases hlit : position % sprite.bytesPerRow * 8 + bit < sprite.width ∧
      byte.toBitVec.getMsbD bit = true
  · rw [if_pos hlit, if_pos hlit]
  · rw [if_neg hlit, if_neg hlit]

variable {sprite : Sprite}

theorem drawByte_eq (hfits : FitsDraw sprite) (byte : UInt8) {position : Nat}
    (hposition : position < 32) {drawn : Plane × Nat} (hhits : drawn.2 + 8 < 65536) :
    drawByte (placeOf screen x y wrap) sprite drawn (byte, position) =
        .ok ((sprite.litInByte byte position).foldl (flipTarget screen x y wrap) drawn) ∧
      ((sprite.litInByte byte position).foldl (flipTarget screen x y wrap) drawn).2 ≤
        drawn.2 + 8 := by
  have hcell := Nat.mod_lt position hfits.bytesPerRow_pos
  have hrow : position / sprite.bytesPerRow < 32 :=
    Nat.lt_of_le_of_lt (Nat.div_le_self _ _) hposition
  have hle := hfits.bytesPerRow_le
  have hbase : position % sprite.bytesPerRow * 8 ≤ 8 := by omega
  rw [drawByte, div_eq hfits.bytesPerRow_pos, ok_bind, rem_eq hfits.bytesPerRow_pos, ok_bind,
    mul_size (Nat.lt_of_le_of_lt hbase (by decide)), ok_bind, litInByte_foldl]
  refine foldlM_eq (fun i (reached : Plane × Nat) => reached.2 ≤ drawn.2 + i)
    (fun i reached bit hbit hreached => ?_) (Nat.le_refl _)
  obtain ⟨hlt, rfl⟩ := List.getElem?_eq_some_iff.mp hbit
  rw [List.length_range] at hlt
  rw [List.getElem_range]
  have hhits : reached.2 + 1 < 65536 := by omega
  obtain ⟨hpass, hcount⟩ := drawBit_eq screen x y wrap sprite.width byte hbase hrow hlt hhits
  exact ⟨hpass, by omega⟩

theorem FitsDraw.planeLength_le (hfits : FitsDraw sprite) :
    sprite.height * sprite.bytesPerRow ≤ 32 :=
  Nat.mul_le_mul hfits.height_le hfits.bytesPerRow_le

/-- The bytes of so small a sprite are easily counted. -/
theorem FitsDraw.fits (hfits : FitsDraw sprite) {ordinal : Nat} (hordinal : ordinal ≤ 4) :
    sprite.Fits ordinal where
  length := Nat.lt_of_le_of_lt hfits.planeLength_le (by decide)
  start := Nat.lt_of_le_of_lt (Nat.mul_le_mul hordinal hfits.planeLength_le) (by decide)

theorem length_share_le (hfits : FitsDraw sprite) {ordinal : Nat} (hordinal : ordinal ≤ 4) :
    (sprite.share ordinal).length ≤ 32 := by
  have hlength := (hfits.fits hordinal).planeLength
  have hle := hfits.planeLength_le
  rw [Sprite.share, List.length_take]
  omega

theorem foldl_targets (sprite : Sprite) (p : Nat) (drawn : Plane × Nat) :
    (screen.targets sprite x y wrap p).foldl (Screen.flipBlock screen.scale) drawn =
      (sprite.share (screen.selectedBefore p)).zipIdx.foldl
        (fun drawn item =>
          (sprite.litInByte item.1 item.2).foldl (flipTarget screen x y wrap) drawn) drawn := by
  have hpixels (pixels : List (Nat × Nat)) :
      (pixels.filterMap (Sprite.destination screen.width screen.height x y wrap)).foldl
        (Screen.flipBlock screen.scale) drawn =
      pixels.foldl (flipTarget screen x y wrap) drawn := by
    rw [List.foldl_filterMap]
    refine List.foldl_ext _ _ _ fun drawn pixel _ => ?_
    rw [flipTarget]
    cases Sprite.destination screen.width screen.height x y wrap pixel <;> rfl
  rw [Screen.targets, hpixels, Sprite.litPixels, List.foldl_flatMap]

theorem selectedBefore_le (p : Nat) : screen.selectedBefore p ≤ p := by
  have hle := List.countP_le_length (p := screen.isSelected) (l := List.range p)
  rwa [List.length_range] at hle

theorem FitsDraw.deals (hfits : FitsDraw sprite) : screen.Deals sprite := by
  intro p _
  apply hfits.fits
  exact Nat.le_trans (selectedBefore_le screen p) (Nat.le_of_lt p.isLt)

theorem drawPlane_eq (hfits : FitsDraw sprite) (p : Fin 4) (plane : Plane) {hits : Nat}
    (hhits : hits + 256 < 65536) :
    drawPlane (placeOf screen x y wrap) sprite (sprite.height * sprite.bytesPerRow)
        (screen.selectedBefore p) plane hits =
      .ok ((screen.targets sprite x y wrap p).foldl (Screen.flipBlock screen.scale)
        (plane, hits)) ∧
      ((screen.targets sprite x y wrap p).foldl (Screen.flipBlock screen.scale)
        (plane, hits)).2 ≤ hits + 256 := by
  have hordinal : screen.selectedBefore p ≤ 4 :=
    Nat.le_trans (selectedBefore_le screen p) (Nat.le_of_lt p.isLt)
  have hcounted : sprite.Fits (screen.selectedBefore p) := hfits.fits hordinal
  have hshare := length_share_le hfits hordinal
  have hstart : screen.selectedBefore p * (sprite.height * sprite.bytesPerRow) ≤ 4 * 32 :=
    Nat.mul_le_mul hordinal hfits.planeLength_le
  have hbytes : (sprite.data.drop
      (screen.selectedBefore p * (sprite.height * sprite.bytesPerRow))).take
        (sprite.height * sprite.bytesPerRow) = sprite.share (screen.selectedBefore p) := by
    rw [Sprite.share, hcounted.planeLength, hcounted.shareStart]
  have hloop : (sprite.share (screen.selectedBefore p)).zipIdx.foldlM
        (drawByte (placeOf screen x y wrap) sprite) (plane, hits) =
      .ok ((sprite.share (screen.selectedBefore p)).zipIdx.foldl (fun drawn item =>
        (sprite.litInByte item.1 item.2).foldl (flipTarget screen x y wrap) drawn) (plane, hits)) ∧
      ((sprite.share (screen.selectedBefore p)).zipIdx.foldl (fun drawn item =>
        (sprite.litInByte item.1 item.2).foldl (flipTarget screen x y wrap) drawn)
          (plane, hits)).2 ≤
        hits + 8 * (sprite.share (screen.selectedBefore p)).zipIdx.length := by
    refine foldlM_eq (fun i (reached : Plane × Nat) => reached.2 ≤ hits + 8 * i)
      (fun i reached item hitem hreached => ?_) (Nat.le_refl _)
    rw [List.getElem?_zipIdx, Option.map_eq_some_iff] at hitem
    obtain ⟨byte, hbyte, rfl⟩ := hitem
    obtain ⟨hlt, -⟩ := List.getElem?_eq_some_iff.mp hbyte
    obtain ⟨hpass, hcount⟩ := drawByte_eq screen x y wrap hfits byte
      (show 0 + i < 32 by omega) (show reached.2 + 8 < 65536 by omega)
    exact ⟨hpass, Nat.le_trans hcount (by omega)⟩
  rw [List.length_zipIdx] at hloop
  rw [drawPlane, mul_size (by omega), ok_bind, foldl_targets, hbytes]
  exact ⟨hloop.1, by omega⟩

/-- A count that starts higher ends as much higher. -/
theorem foldl_flipBlock_add (scale : Nat) (pixels : List (Nat × Nat)) (plane : Plane)
    (hits more : Nat) :
    pixels.foldl (Screen.flipBlock scale) (plane, hits + more) =
      ((pixels.foldl (Screen.flipBlock scale) (plane, hits)).1,
        (pixels.foldl (Screen.flipBlock scale) (plane, hits)).2 + more) := by
  induction pixels generalizing plane hits with
  | nil => rfl
  | cons pixel pixels ih =>
    rw [List.foldl_cons, List.foldl_cons]
    have hfirst : Screen.flipBlock scale (plane, hits + more) pixel =
        ((Screen.flipBlock scale (plane, hits) pixel).1,
          (Screen.flipBlock scale (plane, hits) pixel).2 + more) := by
      simp only [Screen.flipBlock]
      split
      · rw [Nat.add_right_comm]
      · rfl
    rw [hfirst, ih]

/-- Plane `p` after a draw, with the blocks of the planes before it counted already. -/
def drawnAfter (sprite : Sprite) (p : Fin 4) (hits : Nat) : Plane × Nat :=
  (screen.targets sprite x y wrap p).foldl (Screen.flipBlock screen.scale) (screen.plane p, hits)

theorem drawnAfter_eq {p : Fin 4} (hselected : screen.isSelected p = true) (hits : Nat) :
    drawnAfter screen x y wrap sprite p hits =
      ((screen.drawnPlane sprite x y wrap p).1,
        hits + (screen.drawnPlane sprite x y wrap p).2) := by
  rw [drawnAfter, Screen.drawnPlane, if_pos hselected, Nat.add_comm hits, ← foldl_flipBlock_add,
    Nat.zero_add]

theorem hitsBefore_succ (sprite : Sprite) (p : Fin 4) :
    stateBefore screen (drawnAfter screen x y wrap sprite) 0 (p + 1) =
      stateBefore screen (drawnAfter screen x y wrap sprite) 0 p +
        (screen.drawnPlane sprite x y wrap p).2 := by
  rw [stateBefore]
  cases hselected : screen.isSelected p with
  | true => simp only [p.isLt, dite_true, if_true, Fin.eta, drawnAfter_eq screen x y wrap hselected]
  | false => simp [Screen.drawnPlane, hselected]

theorem hits_drawnPlane_le (hfits : FitsDraw sprite) (p : Fin 4) :
    (screen.drawnPlane sprite x y wrap p).2 ≤ 256 := by
  rw [Screen.drawnPlane]
  split
  · have hfirst : 0 + 256 < 65536 := by decide
    exact Nat.le_trans (drawPlane_eq screen x y wrap hfits p (screen.plane p) hfirst).2 (by omega)
  · exact Nat.zero_le _

theorem hitsBefore_le (hfits : FitsDraw sprite) {k : Nat} (hk : k ≤ 4) :
    stateBefore screen (drawnAfter screen x y wrap sprite) 0 k ≤ 256 * k := by
  induction k with
  | zero => exact Nat.le_refl _
  | succ k ih =>
    have hbefore := ih (by omega)
    have hplane := hits_drawnPlane_le screen x y wrap hfits ⟨k, hk⟩
    have hsum := hitsBefore_succ screen x y wrap sprite ⟨k, hk⟩
    dsimp only at hsum
    omega

theorem hitsBefore_eq (sprite : Sprite) (x y : UInt8) :
    stateBefore screen (drawnAfter screen x.toNat y.toNat wrap sprite) 0 4 =
      (screen.draw sprite x y wrap).2 := by
  have hplanes : List.finRange 4 = [0, 1, 2, 3] := by decide
  have hsum := hitsBefore_succ screen x.toNat y.toNat wrap sprite
  rw [Screen.hits_draw, hplanes]
  simp only [List.foldl_cons, List.foldl_nil]
  exact (hsum 3).trans (congrArg (· + _) ((hsum 2).trans (congrArg (· + _)
    ((hsum 1).trans (congrArg (· + _) (hsum 0))))))

/-- The sum of the hits of all planes is what the draw counts. -/
theorem draw_eq (hfits : FitsDraw sprite) (x y : UInt8) :
    draw screen sprite x.toNat y.toNat wrap = .ok (screen.draw sprite x y wrap) := by
  obtain ⟨hwidth, hheight⟩ := size_pos screen
  have hlength := hfits.planeLength_le
  have hplanes := @eachSelected_eq Nat screen
    (drawPlane (placeOf screen x.toNat y.toNat wrap) sprite (sprite.height * sprite.bytesPerRow))
    (drawnAfter screen x.toNat y.toNat wrap sprite) 0 fun p _ => by
      have hbefore := hitsBefore_le screen x.toNat y.toNat wrap hfits (Nat.le_of_lt p.isLt)
      have hbound : 256 * 4 + 256 < 65536 := by decide
      have hp := p.isLt
      exact (drawPlane_eq screen x.toNat y.toNat wrap hfits p (screen.plane p) (by omega)).1
  rw [draw, rem_eq hwidth.1, ok_bind, rem_eq hheight.1, ok_bind,
    mul_size (by omega), ok_bind]
  refine (congrArg (· >>= _) hplanes).trans (congrArg Except.ok (Prod.ext ?_ ?_))
  · refine congrArg (fun planes : Vector Plane 4 =>
      ({ screen with planes, changed := true, awaitingBlank := true } : Screen)) ?_
    refine Vector.ext fun p hp => ?_
    rw [Vector.getElem_ofFn, Vector.getElem_map, Vector.getElem_ofFn]
    cases hselected : screen.isSelected p with
    | true =>
      rw [if_pos rfl, drawnAfter_eq screen x.toNat y.toNat wrap (p := ⟨p, hp⟩) hselected]
    | false =>
      rw [if_neg Bool.false_ne_true, Screen.drawnPlane, if_neg (by simp [hselected])]
  · exact hitsBefore_eq screen wrap sprite x y

end Draws

end Checked

end ChipEight
