import ChipEight.Instruction.Text
import Mathlib.Algebra.Group.Nat.Defs

/-!
Texts as rows of glyphs. A glyph is fixed for the kind of text or holds a digit of an operand.
Two kinds of text that differ in length, or at a place where no digit can make up for it, never
read the same; two texts of one kind that read the same have the same digits.
-/

namespace ChipEight

/-- A character of a text. -/
inductive Glyph where
  | mark (c : Char)
  | digit (d : Nibble)
  deriving DecidableEq

namespace Glyph

def char : Glyph → Char
  | mark c => c
  | digit d => Hex.digit d

def digit? : Glyph → Option Nibble
  | mark _ => none
  | digit d => some d

/-- The glyph with its digit forgotten. -/
def cleared : Glyph → Glyph
  | mark c => mark c
  | digit _ => digit 0

/-- The glyphs read differently whatever digits they hold. -/
def clashes : Glyph → Glyph → Bool
  | mark c, mark d => c != d
  | mark c, digit _ | digit _, mark c => (List.finRange 16).all (Hex.digit · != c)
  | digit _, digit _ => false

/-- The texts differ in length or clash somewhere. -/
def textsClash : List Glyph → List Glyph → Bool
  | [], [] => false
  | a :: s, b :: t => a.clashes b || textsClash s t
  | _, _ => true

theorem digit_injective {d e : Nibble} (h : Hex.digit d = Hex.digit e) : d = e := by
  revert d e
  decide

theorem char_ne_of_clashes {a b : Glyph} (h : a.clashes b = true) : a.char ≠ b.char := by
  cases a with
  | mark c =>
    cases b with
    | mark d => simpa [clashes, char] using h
    | digit d =>
      simp only [clashes, List.all_eq_true, List.mem_finRange, true_implies, bne_iff_ne] at h
      exact (h d).symm
  | digit d =>
    cases b with
    | mark c =>
      simp only [clashes, List.all_eq_true, List.mem_finRange, true_implies, bne_iff_ne] at h
      exact h d
    | digit e => simp [clashes] at h

theorem clashes_cleared (a b : Glyph) : a.cleared.clashes b.cleared = a.clashes b := by
  cases a <;> cases b <;> rfl

theorem eq_of_char_eq {a b : Glyph} (hkind : a.cleared = b.cleared) (hchar : a.char = b.char) :
    a = b := by
  cases a with
  | mark c =>
    cases b with
    | mark d => exact hkind
    | digit e => cases hkind
  | digit d =>
    cases b with
    | mark c => cases hkind
    | digit e => rw [digit_injective hchar]

theorem textsClash_eq_false {s t : List Glyph} (h : s.map char = t.map char) :
    textsClash s t = false := by
  induction s generalizing t with
  | nil =>
    cases t with
    | nil => rfl
    | cons b t => cases h
  | cons a s ih =>
    cases t with
    | nil => cases h
    | cons b t =>
      obtain ⟨hchar, hrest⟩ := List.cons.inj h
      have hglyph : a.clashes b = false :=
        Bool.eq_false_iff.mpr fun hclash => char_ne_of_clashes hclash hchar
      simp [textsClash, hglyph, ih hrest]

theorem textsClash_cleared (s t : List Glyph) :
    textsClash (s.map cleared) (t.map cleared) = textsClash s t := by
  induction s generalizing t with
  | nil => cases t <;> rfl
  | cons a s ih =>
    cases t with
    | nil => rfl
    | cons b t => simp [textsClash, clashes_cleared, ih]

theorem eq_of_map_char_eq {s t : List Glyph} (hkind : s.map cleared = t.map cleared)
    (hchar : s.map char = t.map char) : s = t := by
  induction s generalizing t with
  | nil => simpa using hkind
  | cons a s ih =>
    cases t with
    | nil => cases hkind
    | cons b t =>
      obtain ⟨hkind, hkinds⟩ := List.cons.inj hkind
      obtain ⟨hchar, hchars⟩ := List.cons.inj hchar
      rw [eq_of_char_eq hkind hchar, ih hkinds hchars]

/-- A fixed text. -/
def marks (text : String) : List Glyph :=
  text.toList.map mark

/-- The last `width` base-sixteen digits of a number. -/
def digits : Nat → Nat → List Glyph
  | 0, _ => []
  | width + 1, n => digits width (n / 16) ++ [digit (Fin.ofNat 16 n)]

/-- The number with the given digits. -/
def number (ds : List Nibble) : Nat :=
  ds.foldl (fun n d => 16 * n + d.val) 0

def register (x : Register) : List Glyph :=
  marks "V" ++ digits 1 x.val

@[simp] theorem map_char_marks (text : String) : (marks text).map char = text.toList := by
  simp [marks, char, Function.comp_def]

@[simp] theorem map_char_digits (width n : Nat) :
    (digits width n).map char = Hex.digits width n := by
  induction width generalizing n with
  | zero => rfl
  | succ width ih => simp [digits, Hex.digits, ih, char]

@[simp] theorem filterMap_digit?_marks (text : String) : (marks text).filterMap digit? = [] := by
  simp [marks, digit?]

@[simp] theorem map_cleared_digits (width n : Nat) :
    (digits width n).map cleared = List.replicate width (digit 0) := by
  induction width generalizing n with
  | zero => rfl
  | succ width ih => simp [digits, ih, cleared, List.replicate_succ']

@[simp] theorem filterMap_digit?_digit (n : Nibble) :
    (digits 1 n.val).filterMap digit? = [n] := by
  simp [digits, digit?]

@[simp] theorem filterMap_digit?_register (x : Register) :
    (register x).filterMap digit? = [x] := by
  simp [register]

theorem number_append (ds : List Nibble) (d : Nibble) :
    number (ds ++ [d]) = 16 * number ds + d.val := by
  rw [number, List.foldl_append]
  rfl

theorem number_digits (width n : Nat) :
    number ((digits width n).filterMap digit?) = n % 16 ^ width := by
  induction width generalizing n with
  | zero => simp [digits, number, Nat.mod_one]
  | succ width ih =>
    have hdigits : (digits (width + 1) n).filterMap digit? =
        (digits width (n / 16)).filterMap digit? ++ [Fin.ofNat 16 n] :=
      List.filterMap_append
    rw [hdigits, number_append, ih, Nat.pow_succ', Nat.mod_mul, Fin.val_ofNat, Nat.add_comm]

theorem number_digits_of_lt {width n : Nat} (h : n < 16 ^ width) :
    number ((digits width n).filterMap digit?) = n := by
  rw [number_digits, Nat.mod_eq_of_lt h]

theorem ofNat_number_byte (value : UInt8) :
    UInt8.ofNat (number ((digits 2 value.toNat).filterMap digit?)) = value := by
  rw [number_digits_of_lt value.toNat_lt, UInt8.ofNat_toNat]

theorem ofNat_number_word (word : UInt16) :
    UInt16.ofNat (number ((digits 4 word.toNat).filterMap digit?)) = word := by
  rw [number_digits_of_lt word.toNat_lt, UInt16.ofNat_toNat]

theorem eq_of_digits_eq {word word' : UInt16}
    (h : digits 4 word.toNat = digits 4 word'.toNat) : word = word' := by
  rw [← ofNat_number_word word, h, ofNat_number_word]

theorem eq_of_hexDigits_eq {word word' : UInt16}
    (h : Hex.digits 4 word.toNat = Hex.digits 4 word'.toNat) : word = word' := by
  rw [← map_char_digits, ← map_char_digits] at h
  apply eq_of_digits_eq
  apply eq_of_map_char_eq _ h
  rw [map_cleared_digits, map_cleared_digits]

end Glyph

end ChipEight
