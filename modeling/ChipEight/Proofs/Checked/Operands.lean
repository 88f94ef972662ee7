import ChipEight.Instruction.Decode
import ChipEight.Proofs.Checked.Arithmetic

/-!
The operands of an instruction as plain numbers, cut out of its word by a shift and a mask, and
that the decoder finds the same ones: so every number of a register is below sixteen.
-/

namespace ChipEight

/-- The parts of a word that instructions use as operands. -/
structure Operands where
  x : Nat
  y : Nat
  n : Nat
  nn : Nat
  nnn : Nat

namespace Operands

def ofWord (word : UInt16) : Checked Operands := do
  let x ← Checked.shiftRight .word word.toNat 8
  let y ← Checked.shiftRight .word word.toNat 4
  return {
    x := x &&& 0xF
    y := y &&& 0xF
    n := word.toNat &&& 0xF
    nn := word.toNat &&& 0xFF
    nnn := word.toNat &&& 0xFFF }

def MatchesScroll (operands : Operands) : Scroll → Prop
  | .down rows | .up rows => rows.val = operands.n
  | .right | .left => True

def MatchesCondition (operands : Operands) : Condition → Prop
  | .equalsByte x value | .differsByte x value =>
    x.val = operands.x ∧ value = UInt8.ofNat operands.nn
  | .equals x y | .differs x y => x.val = operands.x ∧ y.val = operands.y
  | .keyDown x | .keyUp x => x.val = operands.x

/-- The operands that an instruction indexes or computes with. -/
def Matches (operands : Operands) : Instruction → Prop
  | .scroll move => operands.MatchesScroll move
  | .skip condition => operands.MatchesCondition condition
  | .storeRange x y | .loadRange x y | .arithmetic _ x y =>
    x.val = operands.x ∧ y.val = operands.y
  | .setByte x value | .addByte x value | .random x value =>
    x.val = operands.x ∧ value = UInt8.ofNat operands.nn
  | .jumpOffset x base => x.val = operands.x ∧ base.val = operands.nnn
  | .draw x y rows => x.val = operands.x ∧ y.val = operands.y ∧ rows.val = operands.n
  | .readDelay x | .awaitKey x | .setDelay x | .setSound x | .addToIndex x | .pointToDigit x
  | .pointToBigDigit x | .storeDecimal x | .setPitch x | .storeThrough x | .loadThrough x
  | .saveFlags x | .restoreFlags x => x.val = operands.x
  | _ => True

theorem and_fifteen (a : Nat) : a &&& 0xF = a % 16 :=
  Nat.and_two_pow_sub_one_eq_mod a 4

/-- The operands of a word without the checks. -/
def digits (word : UInt16) : Operands :=
  { x := (Instruction.nibble word 2).val
    y := (Instruction.nibble word 1).val
    n := (Instruction.nibble word 0).val
    nn := word.toNat % 256
    nnn := (Instruction.shortAddress word).val }

theorem ofWord_eq (word : UInt16) : ofWord word = .ok (digits word) := by
  have hbyte : word.toNat &&& 0xFF = word.toNat % 256 := Nat.and_two_pow_sub_one_eq_mod _ 8
  have haddress : word.toNat &&& 0xFFF = word.toNat % 4096 := Nat.and_two_pow_sub_one_eq_mod _ 12
  rw [ofWord, Checked.shiftRight_eq (by decide), Checked.ok_bind, Checked.shiftRight_eq (by decide),
    Checked.ok_bind, Checked.pure_eq_ok, and_fifteen, and_fifteen, and_fifteen, hbyte, haddress]
  rfl

theorem lowByte_eq (word : UInt16) :
    Instruction.lowByte word = UInt8.ofNat (digits word).nn := by
  rw [← UInt8.toNat_inj, Instruction.lowByte, UInt8.toNat_ofNat', UInt8.toNat_ofNat']
  exact (Nat.mod_mod _ _).symm

theorem matches_decodeSystem (word : UInt16) :
    (digits word).Matches (Instruction.decodeSystem (Instruction.shortAddress word)) := by
  have hrows : (Fin.ofNat 16 ((Instruction.shortAddress word).val % 16)).val = (digits word).n := by
    simp only [digits, Instruction.shortAddress, Instruction.nibble, Fin.val_ofNat, Nat.mul_zero,
      Nat.shiftRight_zero]
    omega
  unfold Instruction.decodeSystem
  split <;> first | exact hrows | trivial

theorem matches_decodeArithmetic (word : UInt16) :
    (digits word).Matches
      (Instruction.decodeArithmetic (Instruction.nibble word 2) (Instruction.nibble word 1)
        word) := by
  unfold Instruction.decodeArithmetic
  split <;> first | exact ⟨rfl, rfl⟩ | trivial

theorem matches_decodeDevice (word : UInt16) :
    (digits word).Matches (Instruction.decodeDevice (Instruction.nibble word 2) word) := by
  unfold Instruction.decodeDevice
  split <;> first | exact rfl | trivial

theorem matches_decode (word : UInt16) : (digits word).Matches (Instruction.decode word) := by
  unfold Instruction.decode
  dsimp only
  split
  · exact matches_decodeSystem word
  · trivial
  · trivial
  · exact ⟨rfl, lowByte_eq word⟩
  · exact ⟨rfl, lowByte_eq word⟩
  · split <;> first | exact ⟨rfl, rfl⟩ | trivial
  · exact ⟨rfl, lowByte_eq word⟩
  · exact ⟨rfl, lowByte_eq word⟩
  · exact matches_decodeArithmetic word
  · split <;> first | exact ⟨rfl, rfl⟩ | trivial
  · trivial
  · exact ⟨rfl, rfl⟩
  · exact ⟨rfl, lowByte_eq word⟩
  · exact ⟨rfl, rfl, rfl⟩
  · split <;> first | exact rfl | trivial
  · split
    · trivial
    · exact matches_decodeDevice word

end Operands

end ChipEight
