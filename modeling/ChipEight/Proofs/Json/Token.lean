import ChipEight.Json.Parser
import Mathlib.Data.List.TakeDrop
import Mathlib.Data.List.TakeWhile

/-!
The smallest parts of a JSON text: blanks, strings and numbers. Each is described as a set of
texts with what they denote, and the parser takes exactly these texts from the front of its
input. A number ends where no digit, point or exponent follows.
-/

namespace ChipEight.Json

open ChipEight.Json.Parser

def Blank (text : List Char) : Prop :=
  ∀ c ∈ text, isBlank c = true

theorem skipBlanks_append {blanks : List Char} (h : Blank blanks) (rest : List Char) :
    skipBlanks (blanks ++ rest) = skipBlanks rest :=
  List.dropWhile_append_of_pos h

theorem skipBlanks_cons {c : Char} (h : isBlank c = false) (rest : List Char) :
    skipBlanks (c :: rest) = c :: rest :=
  List.dropWhile_cons_of_neg (by simp [h])

theorem exists_blank_append (text : List Char) :
    ∃ blanks, Blank blanks ∧ text = blanks ++ skipBlanks text :=
  ⟨text.takeWhile isBlank, fun _ hc => List.mem_takeWhile_imp hc,
    List.takeWhile_append_dropWhile.symm⟩

/-- The text between two quotes, with the code units that it denotes. -/
inductive Inside : List Char → List Nat → Prop where
  | nil : Inside [] []
  | plain {c : Char} {text : List Char} {units : List Nat} (hquote : c ≠ '"') (hslash : c ≠ '\\')
      (hcontrol : 0x20 ≤ c.toNat) : Inside text units → Inside (c :: text) (c.toNat :: units)
  | escape {e c : Char} {text : List Char} {units : List Nat} (h : escaped? e = some c) :
      Inside text units → Inside ('\\' :: e :: text) (c.toNat :: units)
  | code {a b c d : Char} {unit : Nat} {text : List Char} {units : List Nat}
      (h : unit? a b c d = some unit) :
      Inside text units → Inside ('\\' :: 'u' :: a :: b :: c :: d :: text) (unit :: units)

theorem Inside.units_append {text : List Char} {found : List Nat} (h : Inside text found)
    (rest : List Char) : units (text ++ '"' :: rest) = some (found, rest) := by
  induction h with
  | nil => simp [units]
  | plain hquote hslash hcontrol _ ih =>
    have hlow : ¬ _ < 0x20 := Nat.not_lt.mpr hcontrol
    simp [units, hslash, hlow, ih]
  | @escape e c text found h _ ih =>
    -- The reader looks for a code first, and `u` is no escape on its own.
    have hu : e ≠ 'u' := by
      rintro rfl
      cases h
    simp [units, hu, h, ih]
  | code h _ ih => simp [units, h, ih]

theorem exists_inside_of_units {text rest : List Char} {found : List Nat}
    (h : units text = some (found, rest)) :
    ∃ inside, text = inside ++ '"' :: rest ∧ Inside inside found := by
  fun_induction units text generalizing found with
  | case1 => cases h
  | case2 =>
    cases h
    exact ⟨[], rfl, .nil⟩
  | case3 a b c d text ih =>
    obtain ⟨unit, hunit, h⟩ := Option.bind_eq_some_iff.mp h
    obtain ⟨⟨later, after⟩, hlater, h⟩ := Option.bind_eq_some_iff.mp h
    cases h
    obtain ⟨inside, rfl, hinside⟩ := ih hlater
    exact ⟨'\\' :: 'u' :: a :: b :: c :: d :: inside, rfl, .code hunit hinside⟩
  | case4 e text _ ih =>
    obtain ⟨c, hc, h⟩ := Option.bind_eq_some_iff.mp h
    obtain ⟨⟨later, after⟩, hlater, h⟩ := Option.bind_eq_some_iff.mp h
    cases h
    obtain ⟨inside, rfl, hinside⟩ := ih hlater
    exact ⟨'\\' :: e :: inside, rfl, .escape hc hinside⟩
  | case5 => cases h
  | case6 c text hquote _ _ hplain ih =>
    obtain ⟨⟨later, after⟩, hlater, h⟩ := Option.bind_eq_some_iff.mp h
    cases h
    obtain ⟨inside, rfl, hinside⟩ := ih hlater
    rw [not_or, Nat.not_lt] at hplain
    exact ⟨c :: inside, rfl, .plain hquote hplain.1 hplain.2 hinside⟩

/-- The text that code units stand for, if there is any. -/
def content (units : List Nat) : Option String :=
  (characters units).map String.ofList

theorem quoted_eq_some_iff {text rest : List Char} {content? : Option String} :
    quoted text = some (content?, rest) ↔
      ∃ inside found, text = inside ++ '"' :: rest ∧ Inside inside found ∧
        content? = content found := by
  constructor
  · intro h
    obtain ⟨⟨found, after⟩, hunits, h⟩ := Option.bind_eq_some_iff.mp h
    cases h
    obtain ⟨inside, htext, hinside⟩ := exists_inside_of_units hunits
    exact ⟨inside, found, htext, hinside, rfl⟩
  · rintro ⟨inside, found, rfl, hinside, rfl⟩
    rw [quoted, hinside.units_append]
    rfl

/-- At least one digit, and nothing else. -/
structure Digits (text : List Char) : Prop where
  nonempty : text ≠ []
  isDigit : ∀ c ∈ text, c.isDigit = true

/-- No digit follows. -/
def NoDigit (rest : List Char) : Prop :=
  ∀ c ∈ rest.head?, c.isDigit = false

theorem Digits.digits_append {text rest : List Char} (h : Digits text) (hrest : NoDigit rest) :
    digits (text ++ rest) = some (text, rest) := by
  have hspan : (text ++ rest).span Char.isDigit = (text, rest) := by
    rw [List.span_eq_takeWhile_dropWhile, List.takeWhile_append_of_pos h.isDigit,
      List.dropWhile_append_of_pos h.isDigit]
    cases rest with
    | nil => simp
    | cons c rest => simp [hrest c rfl]
  rw [digits, hspan]
  cases text with
  | nil => exact absurd rfl h.nonempty
  | cons c text => rfl

theorem exists_digits {text found rest : List Char} (h : digits text = some (found, rest)) :
    text = found ++ rest ∧ Digits found := by
  rw [digits, List.span_eq_takeWhile_dropWhile] at h
  have hdigits : ∀ c ∈ text.takeWhile Char.isDigit, c.isDigit = true :=
    fun _ hc => List.mem_takeWhile_imp hc
  have happend := List.takeWhile_append_dropWhile (p := Char.isDigit) (l := text)
  -- What is taken may be empty, and then the reader fails.
  generalize text.takeWhile Char.isDigit = whole at h hdigits happend
  cases whole with
  | nil => cases h
  | cons c whole =>
    cases h
    exact ⟨happend.symm, List.cons_ne_nil _ _, hdigits⟩

/-- A point with digits, or nothing. The mark says which. -/
inductive Fraction : Bool → List Char → Prop where
  | absent : Fraction false []
  | present {text : List Char} : Digits text → Fraction true ('.' :: text)

/-- A power of ten, or nothing. -/
inductive Exponent : Bool → List Char → Prop where
  | absent : Exponent false []
  | unsigned {e : Char} {text : List Char} (he : e = 'e' ∨ e = 'E') :
      Digits text → Exponent true (e :: text)
  | signed {e sign : Char} {text : List Char} (he : e = 'e' ∨ e = 'E')
      (hsign : sign = '+' ∨ sign = '-') : Digits text → Exponent true (e :: sign :: text)

/-- The spellings of numbers. Only a lone zero begins with a zero. -/
inductive Number : List Char → Numeral → Prop where
  | mk {negative hasFraction hasExponent : Bool} {whole fraction exponent : List Char}
      (hwhole : Digits whole) (hzero : whole.head? = some '0' → whole.length = 1)
      (hfraction : Fraction hasFraction fraction) (hexponent : Exponent hasExponent exponent) :
      Number ((if negative then ['-'] else []) ++ whole ++ fraction ++ exponent)
        { negative, digits := whole, plain := !hasFraction && !hasExponent }

/-- Nothing follows that could belong to a number. -/
def EndsNumber (rest : List Char) : Prop :=
  ∀ c ∈ rest.head?, c.isDigit = false ∧ c ≠ '.' ∧ c ≠ 'e' ∧ c ≠ 'E'

theorem EndsNumber.noDigit {rest : List Char} (h : EndsNumber rest) : NoDigit rest :=
  fun c hc => (h c hc).1

theorem noDigit_cons {c : Char} (h : c.isDigit = false) (rest : List Char) :
    NoDigit (c :: rest) := by
  rintro _ ⟨⟩
  exact h

theorem Fraction.fraction_append {mark : Bool} {text rest : List Char} (h : Fraction mark text)
    (hdigit : NoDigit rest) (hpoint : '.' ∉ rest.head?) :
    fraction (text ++ rest) = some (mark, rest) := by
  cases h with
  | absent =>
    cases rest with
    | nil => rfl
    | cons c rest =>
      have hc : c ≠ '.' := by simpa [eq_comm] using hpoint
      simp [fraction, hc]
  | present hdigits => simp [fraction, hdigits.digits_append hdigit]

theorem Exponent.exponent_append {mark : Bool} {text rest : List Char} (h : Exponent mark text)
    (hrest : EndsNumber rest) : exponent (text ++ rest) = some (mark, rest) := by
  cases h with
  | absent =>
    cases rest with
    | nil => rfl
    | cons c rest =>
      obtain ⟨-, -, he, hE⟩ := hrest c rfl
      simp [exponent, he, hE]
  | unsigned he hdigits =>
    obtain ⟨c, text, rfl⟩ := List.exists_cons_of_ne_nil hdigits.nonempty
    have hsign : ¬ (c = '+' ∨ c = '-') := by
      rintro (rfl | rfl)
      · exact absurd (hdigits.isDigit '+' (by simp)) (by decide)
      · exact absurd (hdigits.isDigit '-' (by simp)) (by decide)
    have hread := hdigits.digits_append hrest.noDigit
    rw [List.cons_append] at hread
    simp [exponent, he, hsign, hread]
  | signed he hsign hdigits =>
    simp [exponent, he, hsign, hdigits.digits_append hrest.noDigit]

theorem exists_fraction {mark : Bool} {text rest : List Char}
    (h : fraction text = some (mark, rest)) :
    ∃ found, text = found ++ rest ∧ Fraction mark found := by
  unfold fraction at h
  split at h
  · obtain ⟨⟨found, after⟩, hdigits, h⟩ := Option.bind_eq_some_iff.mp h
    cases h
    obtain ⟨rfl, hfound⟩ := exists_digits hdigits
    exact ⟨'.' :: found, rfl, .present hfound⟩
  · cases h
    exact ⟨[], rfl, .absent⟩

theorem exists_exponent {mark : Bool} {text rest : List Char}
    (h : exponent text = some (mark, rest)) :
    ∃ found, text = found ++ rest ∧ Exponent mark found := by
  cases text with
  | nil =>
    cases h
    exact ⟨[], rfl, .absent⟩
  | cons c text =>
    by_cases he : c = 'e' ∨ c = 'E'
    · simp only [exponent, he, if_true] at h
      obtain ⟨⟨found, after⟩, hdigits, h⟩ := Option.bind_eq_some_iff.mp h
      cases h
      obtain ⟨hunsigned, hfound⟩ := exists_digits hdigits
      split at hunsigned
      · rename_i sign tail
        by_cases hsign : sign = '+' ∨ sign = '-'
        · rw [if_pos hsign] at hunsigned
          exact ⟨c :: sign :: found, by rw [hunsigned]; rfl, .signed he hsign hfound⟩
        · rw [if_neg hsign] at hunsigned
          exact ⟨c :: found, by rw [hunsigned]; rfl, .unsigned he hfound⟩
      · exact ⟨c :: found, by rw [hunsigned]; rfl, .unsigned he hfound⟩
    · simp only [exponent, he, if_false] at h
      cases h
      exact ⟨[], rfl, .absent⟩

theorem Fraction.endsDigits {mark : Bool} {text rest : List Char} (h : Fraction mark text)
    (hrest : NoDigit rest) : NoDigit (text ++ rest) := by
  cases h with
  | absent => exact hrest
  | present => exact noDigit_cons rfl _

theorem Exponent.endsFraction {mark : Bool} {text rest : List Char} (h : Exponent mark text)
    (hrest : EndsNumber rest) : NoDigit (text ++ rest) ∧ '.' ∉ (text ++ rest).head? := by
  have hmark : ∀ e : Char, e = 'e' ∨ e = 'E' → e.isDigit = false ∧ e ≠ '.' := by
    rintro e (rfl | rfl)
    · decide
    · decide
  cases h with
  | absent => exact ⟨hrest.noDigit, fun hpoint => (hrest '.' hpoint).2.1 rfl⟩
  | unsigned he =>
    exact ⟨noDigit_cons (hmark _ he).1 _, by simpa [eq_comm] using (hmark _ he).2⟩
  | signed he =>
    exact ⟨noDigit_cons (hmark _ he).1 _, by simpa [eq_comm] using (hmark _ he).2⟩

theorem Number.numeral_append {text rest : List Char} {found : Numeral} (h : Number text found)
    (hrest : EndsNumber rest) : numeral (text ++ rest) = some (found, rest) := by
  obtain ⟨hwhole, hzero, hfraction, hexponent⟩ := h
  rename_i negative hasFraction hasExponent whole fraction exponent
  obtain ⟨hdigit, hpoint⟩ := hexponent.endsFraction hrest
  have hdigits := hwhole.digits_append (hfraction.endsDigits hdigit)
  obtain ⟨c, whole, rfl⟩ := List.exists_cons_of_ne_nil hwhole.nonempty
  have hlone : c = '0' → whole = [] := by simpa using hzero
  rw [List.cons_append] at hdigits
  cases negative with
  | true =>
    simpa [numeral, hdigits, hfraction.fraction_append hdigit hpoint,
      hexponent.exponent_append hrest] using hlone
  | false =>
    have hminus : c ≠ '-' := by
      rintro rfl
      exact absurd (hwhole.isDigit '-' (by simp)) (by decide)
    simpa [numeral, hminus, hdigits, hfraction.fraction_append hdigit hpoint,
      hexponent.exponent_append hrest] using hlone

theorem exists_number {text rest : List Char} {found : Numeral}
    (h : numeral text = some (found, rest)) :
    ∃ spelling, text = spelling ++ rest ∧ Number spelling found := by
  unfold numeral at h
  split at h
  rename_i negative unsigned hsign
  have htext : text = (if negative then ['-'] else []) ++ unsigned := by
    split at hsign
    · cases hsign
      rfl
    · cases hsign
      rfl
  obtain ⟨⟨whole, afterWhole⟩, hdigits, hunsigned⟩ := Option.bind_eq_some_iff.mp h
  obtain ⟨hwholeText, hwhole⟩ := exists_digits hdigits
  dsimp only at hunsigned
  by_cases hlone : whole.head? = some '0' ∧ whole.length ≠ 1
  · rw [if_pos hlone] at hunsigned
    cases hunsigned
  rw [if_neg hlone] at hunsigned
  obtain ⟨⟨hasFraction, afterFraction⟩, hread, hscaled⟩ := Option.bind_eq_some_iff.mp hunsigned
  obtain ⟨fraction, hfractionText, hfraction⟩ := exists_fraction hread
  obtain ⟨⟨hasExponent, afterExponent⟩, hread, hfound⟩ := Option.bind_eq_some_iff.mp hscaled
  dsimp only at hread hfound
  obtain ⟨exponent, hexponentText, hexponent⟩ := exists_exponent hread
  cases hfound
  refine ⟨_, ?_, .mk hwhole (fun hzero => ?_) hfraction hexponent⟩
  · rw [htext, hwholeText, hfractionText, hexponentText]
    simp only [List.append_assoc]
  · exact Decidable.byContradiction fun hlength => hlone ⟨hzero, hlength⟩

end ChipEight.Json
