import ChipEight.Proofs.Checked.Raster
import ChipEight.Proofs.Screen.LowResolution
import ChipEight.Proofs.Screen.PlaneIsolation
import ChipEight.Screen.Text
import Mathlib.Data.Fintype.Pi

/-!
The text of a screen holds all that the planes show. A character stands for one colour, and a
colour says of every plane whether the pixel is lit there. The text samples one raster pixel
of each block, so nothing is lost as long as blocks are whole: in high resolution they are
single pixels, and a course in low resolution that scales its scrolls keeps them whole.
-/

namespace ChipEight.Screen

theorem character_inj : ∀ {a b : Fin 16}, character a.val = character b.val → a = b := by
  decide

theorem character_ne_newline : ∀ a : Fin 16, character a.val ≠ '\n' := by
  decide

section Colours

variable (screen : Screen)

theorem colour_lt (x y : Nat) : screen.colour x y < 16 := by
  have hlt : ∀ lit : Fin 4 → Bool, (List.finRange 4).foldl
      (fun colour p => if lit p then colour + (1 <<< p.val) else colour) 0 < 16 := by decide
  exact hlt fun p => (screen.plane p).pixel x y

theorem testBit_colour (x y : Nat) (p : Fin 4) :
    (screen.colour x y).testBit p = (screen.plane p).pixel x y := by
  have hbit : ∀ (lit : Fin 4 → Bool) (p : Fin 4), ((List.finRange 4).foldl
      (fun colour p => if lit p then colour + (1 <<< p.val) else colour) 0).testBit p = lit p := by
    decide
  exact hbit (fun p => (screen.plane p).pixel x y) p

end Colours

variable {first second : Screen}

theorem colour_eq_iff (x y : Nat) :
    first.colour x y = second.colour x y ↔
      ∀ p : Fin 4, (first.plane p).pixel x y = (second.plane p).pixel x y := by
  constructor
  · intro hcolour p
    rw [← testBit_colour, ← testBit_colour, hcolour]
  · intro hpixel
    unfold colour
    simp only [hpixel]

theorem character_colour_eq_iff (x y : Nat) :
    character (first.colour x y) = character (second.colour x y) ↔
      first.colour x y = second.colour x y := by
  constructor
  · intro hcharacter
    exact congrArg Fin.val
      (character_inj (a := ⟨_, first.colour_lt x y⟩) (b := ⟨_, second.colour_lt x y⟩) hcharacter)
  · exact congrArg character

theorem length_line (screen : Screen) (y : Nat) :
    (screen.line y).toList.length = screen.width := by
  simp [line]

theorem newline_notMem_line (screen : Screen) (y : Nat) : '\n' ∉ (screen.line y).toList := by
  simp only [line, String.toList_ofList, List.mem_map, not_exists, not_and]
  intro x _
  exact character_ne_newline ⟨_, screen.colour_lt _ _⟩

theorem toList_text (screen : Screen) :
    screen.text.toList =
      (((List.range screen.height).map fun y => (screen.line y).toList).map
        (· ++ ['\n'])).flatten := by
  simp [text, lines, List.flatMap_def, Function.comp_def]

theorem line_eq_iff (hsame : first.highResolution = second.highResolution) (y : Nat) :
    (first.line y).toList = (second.line y).toList ↔
      ∀ x < first.width, first.colour (x * first.scale) (y * first.scale) =
        second.colour (x * first.scale) (y * first.scale) := by
  have hwidth : second.width = first.width := by rw [width, width, hsame]
  have hscale : second.scale = first.scale := by rw [scale, scale, hsame]
  simp only [line, String.toList_ofList, hwidth, hscale, List.map_inj_left, List.mem_range,
    character_colour_eq_iff]

/-- Lines of one length can be told apart in the text of all of them. -/
theorem text_eq_iff (hsame : first.highResolution = second.highResolution) :
    first.text = second.text ↔
      ∀ y < first.height, ∀ x < first.width, first.colour (x * first.scale) (y * first.scale) =
        second.colour (x * first.scale) (y * first.scale) := by
  have hwidth : second.width = first.width := by rw [width, width, hsame]
  have hheight : second.height = first.height := by rw [height, height, hsame]
  have hlengths : ((List.range first.height).map fun y => (first.line y).toList ++ ['\n']).map
      List.length = ((List.range first.height).map fun y => (second.line y).toList ++ ['\n']).map
      List.length := by
    simp [length_line, hwidth, Function.comp_def]
  rw [← String.toList_inj, toList_text, toList_text, hheight]
  simp only [List.map_map, Function.comp_def]
  rw [← and_iff_left (a := List.flatten _ = List.flatten _) hlengths, ← List.eq_iff_flatten_eq,
    List.map_inj_left]
  simp only [List.mem_range, List.append_left_inj, line_eq_iff hsame]

/-- Every raster pixel is lit in the same planes as the first pixel of its block. -/
def HasWholeBlocks (screen : Screen) : Prop :=
  ∀ (p : Fin 4) (x y : Nat), (screen.plane p).pixel x y =
    (screen.plane p).pixel (x / screen.scale * screen.scale) (y / screen.scale * screen.scale)

theorem hasWholeBlocks_of_highResolution {screen : Screen}
    (hhigh : screen.highResolution = true) : screen.HasWholeBlocks := by
  intro p x y
  rw [scale, if_pos hhigh]
  simp

theorem Simulates.hasWholeBlocks {screen : Screen} {cells : CellScreen}
    (h : screen.Simulates cells) : screen.HasWholeBlocks := by
  intro p x y
  have hpixel := (Plane.shows_iff _ _).mp (h.shows p)
  rw [h.scale, hpixel, hpixel, Nat.mul_div_cancel _ (by omega), Nat.mul_div_cancel _ (by omega)]

theorem Simulates.performAll {screen : Screen} {cells : CellScreen} (h : screen.Simulates cells)
    (operations : List Operation) (hlow : ∀ operation ∈ operations, operation.isLow = true) :
    ∃ cells : CellScreen, (screen.performAll operations).Simulates cells := by
  induction operations generalizing screen cells with
  | nil => exact ⟨cells, h⟩
  | cons operation operations ih =>
    obtain ⟨hfirst, hrest⟩ := List.forall_mem_cons.mp hlow
    exact ih (h.performBy operation hfirst).1 hrest

/-- With whole blocks the sampled pixels decide on all of them. -/
theorem text_eq_iff_planes_eq (hsame : first.highResolution = second.highResolution)
    (hfirst : first.HasWholeBlocks) (hsecond : second.HasWholeBlocks) :
    first.text = second.text ↔ first.planes = second.planes := by
  have hscale : second.scale = first.scale := by rw [scale, scale, hsame]
  constructor
  · intro htext
    have hcolour := (text_eq_iff hsame).mp htext
    refine Vector.ext fun p hp => Plane.eq_of_pixel_eq fun x y hx hy => ?_
    have hcolumn : x / first.scale < first.width := by
      unfold scale width
      split <;> omega
    have hrow : y / first.scale < first.height := by
      unfold scale height
      split <;> omega
    have hcorner := (colour_eq_iff _ _).mp (hcolour _ hrow _ hcolumn) ⟨p, hp⟩
    calc (first.plane ⟨p, hp⟩).pixel x y
        = (first.plane ⟨p, hp⟩).pixel (x / first.scale * first.scale)
            (y / first.scale * first.scale) := hfirst _ x y
      _ = (second.plane ⟨p, hp⟩).pixel (x / first.scale * first.scale)
            (y / first.scale * first.scale) := hcorner
      _ = (second.plane ⟨p, hp⟩).pixel x y := by rw [hsecond ⟨p, hp⟩ x y, hscale]
  · intro hplanes
    refine (text_eq_iff hsame).mpr fun y _ x _ => (colour_eq_iff _ _).mpr fun p => ?_
    rw [plane, plane, hplanes]

/-- The text has a line for every row and a character for every pixel of the logical screen,
and it tells apart any two screens of one resolution in high resolution, as well as any two
that low resolution alone leads to with whole cells. -/
theorem text_loses_nothing :
    (∀ screen : Screen, ∃ rows : List (List Char),
      screen.text.toList = (rows.map (· ++ ['\n'])).flatten ∧ rows.length = screen.height ∧
        ∀ row ∈ rows, row.length = screen.width ∧ '\n' ∉ row) ∧
      (∀ first second : Screen, first.highResolution = true → second.highResolution = true →
        (first.text = second.text ↔ first.planes = second.planes)) ∧
      ∀ operations others : List Operation,
        (∀ operation ∈ operations, operation.isLow = true) →
        (∀ operation ∈ others, operation.isLow = true) →
        ((performAll { } operations).text = (performAll { } others).text ↔
          (performAll { } operations).planes = (performAll { } others).planes) := by
  refine ⟨fun screen => ?_, fun first second hfirst hsecond => ?_,
    fun operations others hoperations hothers => ?_⟩
  · refine ⟨_, screen.toList_text, by simp, fun row hrow => ?_⟩
    obtain ⟨y, -, rfl⟩ := List.mem_map.mp hrow
    exact ⟨screen.length_line y, screen.newline_notMem_line y⟩
  · exact text_eq_iff_planes_eq (hfirst.trans hsecond.symm)
      (hasWholeBlocks_of_highResolution hfirst) (hasWholeBlocks_of_highResolution hsecond)
  · obtain ⟨cells, hcells⟩ := Simulates.initial.performAll operations hoperations
    obtain ⟨otherCells, hotherCells⟩ := Simulates.initial.performAll others hothers
    exact text_eq_iff_planes_eq (hcells.low.trans hotherCells.low.symm) hcells.hasWholeBlocks
      hotherCells.hasWholeBlocks

/-- A pixel of the third plane after the draws in the corner. -/
def thirdPlaneDraws : List Operation :=
  cornerDraws ++ [.selectPlanes 4, .draw ⟨8, 1, 1, [0x80]⟩ 9 9 false]

/-- The fourth plane in high resolution. -/
def fourthPlane : List Operation :=
  [.setResolution true, .selectPlanes 8]

theorem text_loses_nothing_thirdPlane :
    ((∀ operation ∈ thirdPlaneDraws, operation.isLow = true) ∧
      (∀ operation ∈ cornerDraws, operation.isLow = true) ∧
      (performAll { } thirdPlaneDraws).text ≠ (performAll { } cornerDraws).text) ∧
      (performAll { } (fourthPlane ++ [.draw ⟨8, 1, 1, [0x80]⟩ 9 9 false])).text ≠
        (performAll { } fourthPlane).text := by
  have hlow : ∀ operation ∈ thirdPlaneDraws, operation.isLow = true := by decide
  have hcorner : ∀ operation ∈ cornerDraws, operation.isLow = true := by decide
  refine ⟨⟨hlow, hcorner, fun htext => ?_⟩, fun htext => ?_⟩
  · have hplanes := (text_loses_nothing.2.2 _ _ hlow hcorner).mp htext
    exact absurd hplanes (by decide +kernel)
  · have hplanes := (text_loses_nothing.2.1 _ _ rfl rfl).mp htext
    exact absurd hplanes (by decide +kernel)

end ChipEight.Screen
