/-!
Numbers in base ten, read as far as they stay below a limit. Reading gives the value of the
digits exactly when that is below the limit.
-/

namespace ChipEight.Decimal

def digit (c : Char) : Nat :=
  c.toNat - '0'.toNat

/-- The number that digits make after the number `n`. -/
def valueFrom (n : Nat) (digits : List Char) : Nat :=
  digits.foldl (fun n c => n * 10 + digit c) n

/-- As `valueFrom`; reading stops at the first digit that leads to the limit. -/
def readFrom? (limit n : Nat) : List Char → Option Nat
  | [] => some n
  | c :: rest =>
    if n * 10 + digit c < limit then readFrom? limit (n * 10 + digit c) rest else none

/-- The number with the given digits if it is below `limit`. -/
def readBelow? (limit : Nat) (digits : List Char) : Option Nat :=
  readFrom? limit 0 digits

theorem le_valueFrom (n : Nat) (digits : List Char) : n ≤ valueFrom n digits := by
  induction digits generalizing n with
  | nil => exact Nat.le_refl n
  | cons c rest ih =>
    have := ih (n * 10 + digit c)
    simp only [valueFrom, List.foldl_cons] at this ⊢
    omega

theorem readFrom?_eq_ite {limit n : Nat} (hn : n < limit) (digits : List Char) :
    readFrom? limit n digits =
      if valueFrom n digits < limit then some (valueFrom n digits) else none := by
  induction digits generalizing n with
  | nil => simp [readFrom?, valueFrom, hn]
  | cons c rest ih =>
    rw [readFrom?]
    split
    · rename_i h
      exact ih h
    · rename_i h
      have := le_valueFrom (n * 10 + digit c) rest
      rw [if_neg]
      simp only [valueFrom, List.foldl_cons] at this ⊢
      omega

end ChipEight.Decimal
