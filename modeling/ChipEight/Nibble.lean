/-!
Numbers of four bits, which serve as digits, registers, keys and places in a block of sixteen
words.
-/

namespace ChipEight

abbrev Nibble := Fin 16

/-- Literals and remainders of all these numbers go through this one proof. -/
instance Nibble.neZero : @NeZero Nat Zero.ofOfNat0 16 :=
  ⟨by decide⟩

end ChipEight
