import ChipEight.Keypad

/-!
The keypad on the left-hand block of a QWERTY keyboard, key by key in the same place.
-/

namespace ChipEight.Keyboard

/-- Characters with the keys under them, row by row. -/
def layout : List (Char × Key) := [
  ('1', 0x1), ('2', 0x2), ('3', 0x3), ('4', 0xC),
  ('q', 0x4), ('w', 0x5), ('e', 0x6), ('r', 0xD),
  ('a', 0x7), ('s', 0x8), ('d', 0x9), ('f', 0xE),
  ('z', 0xA), ('x', 0x0), ('c', 0xB), ('v', 0xF)]

/-- The case of ASCII letters does not matter. -/
def key? (c : Char) : Option Key :=
  layout.lookup c.toLower

end ChipEight.Keyboard
