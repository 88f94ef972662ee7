import ChipEight.Decimal

/-!
JSON documents as trees, with the members of an object in the order of the text.
-/

namespace ChipEight.Json

/-- A number as far as documents here make use of it: only whole ones are read. -/
structure Numeral where
  negative : Bool
  /-- The digits before a fraction or an exponent. -/
  digits : List Char
  /-- Written with neither a fraction nor an exponent. -/
  plain : Bool
  deriving DecidableEq, Repr

/-- The number, if it is below `limit` and written without sign, fraction and exponent. -/
def Numeral.natBelow? (limit : Nat) (numeral : Numeral) : Option Nat :=
  if !numeral.negative && numeral.plain then Decimal.readBelow? limit numeral.digits else none

/-- A string in which an escape leaves half of a surrogate pair alone denotes no text; it is
`none` here, as a value or as the name of a member. -/
inductive Value where
  | null
  | bool (value : Bool)
  | number (numeral : Numeral)
  | string (content : Option String)
  | array (items : List Value)
  | object (members : List (Option String × Value))
  deriving Repr

end ChipEight.Json
