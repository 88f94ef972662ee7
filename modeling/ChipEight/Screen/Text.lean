import ChipEight.Hex
import ChipEight.Screen

/-!
The logical screen as text, a character per pixel and a line per row.
-/

namespace ChipEight.Screen

/-- Dark pixels and pixels of the first plane alone are blocks, other colours a digit. -/
def character (colour : Nat) : Char :=
  match colour with
  | 0 => '░'
  | 1 => '█'
  | _ => (Hex.digit (Fin.ofNat 16 colour)).toLower

def line (screen : Screen) (y : Nat) : String :=
  String.ofList <| (List.range screen.width).map fun x =>
    character (screen.colour (x * screen.scale) (y * screen.scale))

/-- The rows of the screen from the top. -/
def lines (screen : Screen) : List String :=
  (List.range screen.height).map screen.line

/-- The rows as one text, each with its end. -/
def text (screen : Screen) : String :=
  String.join (screen.lines.map (· ++ "\n"))

end ChipEight.Screen
