import ChipEight.Nibble

/-!
Numbers in base sixteen. Listings and register dumps use a fixed count of upper-case digits;
digests use lower-case ones.
-/

namespace ChipEight.Hex

/-- Upper-case digit of a value below sixteen. -/
def digit (d : Fin 16) : Char :=
  Char.ofNat (if d.val < 10 then 0x30 + d.val else 0x37 + d.val)

/-- The last `width` base-sixteen digits of a number, most significant first. -/
def digits : Nat → Nat → List Char
  | 0, _ => []
  | width + 1, n => digits width (n / 16) ++ [digit (Fin.ofNat 16 n)]

def fixed (width n : Nat) : String :=
  String.ofList (digits width n)

/-- Without leading zeros; values that need more than two digits do not occur. -/
def shortByte (b : UInt8) : String :=
  if b < 16 then fixed 1 b.toNat else fixed 2 b.toNat

def lowerByte (b : UInt8) : List Char :=
  (digits 2 b.toNat).map Char.toLower

/-- Two lower-case digits for every byte. -/
def lowerBytes (bytes : List UInt8) : String :=
  String.ofList (bytes.flatMap lowerByte)

@[simp] theorem length_digits (width n : Nat) : (digits width n).length = width := by
  induction width generalizing n with
  | zero => rfl
  | succ width ih => simp [digits, ih]

end ChipEight.Hex
