import ChipEight.Proofs.Json.Token

/-!
The grammar of JSON documents, and the parser against it: a text is read as a tree if and only
if the grammar derives the tree from it. Blanks may stand around every value, around the names
of members, and between the brackets of what is empty.
-/

namespace ChipEight.Json

open ChipEight.Json.Parser

mutual

/-- The text of a value, without blanks around it. -/
inductive Spells : List Char → Value → Prop where
  | null : Spells ['n', 'u', 'l', 'l'] .null
  | yes : Spells ['t', 'r', 'u', 'e'] (.bool true)
  | no : Spells ['f', 'a', 'l', 's', 'e'] (.bool false)
  | number {text : List Char} {numeral : Numeral} :
      Number text numeral → Spells text (.number numeral)
  | string {inside : List Char} {units : List Nat} :
      Inside inside units → Spells ('"' :: inside ++ ['"']) (.string (content units))
  | emptyArray {blanks : List Char} : Blank blanks → Spells ('[' :: blanks ++ [']']) (.array [])
  | array {text : List Char} {items : List Value} :
      Items text items → Spells ('[' :: text ++ [']']) (.array items)
  | emptyObject {blanks : List Char} :
      Blank blanks → Spells ('{' :: blanks ++ ['}']) (.object [])
  | object {text : List Char} {members : List (Option String × Value)} :
      Members text members → Spells ('{' :: text ++ ['}']) (.object members)

inductive Padded : List Char → Value → Prop where
  | mk {before text after : List Char} {value : Value} :
      Blank before → Spells text value → Blank after → Padded (before ++ text ++ after) value

/-- Values with commas between them. -/
inductive Items : List Char → List Value → Prop where
  | last {text : List Char} {value : Value} : Padded text value → Items text [value]
  | more {text later : List Char} {value : Value} {values : List Value} :
      Padded text value → Items later values → Items (text ++ ',' :: later) (value :: values)

/-- Names and values with commas between them. -/
inductive Members : List Char → List (Option String × Value) → Prop where
  | last {before inside gap text : List Char} {units : List Nat} {value : Value} :
      Blank before → Inside inside units → Blank gap → Padded text value →
      Members (before ++ '"' :: inside ++ '"' :: gap ++ ':' :: text) [(content units, value)]
  | more {before inside gap text later : List Char} {units : List Nat} {value : Value}
      {members : List (Option String × Value)} :
      Blank before → Inside inside units → Blank gap → Padded text value →
      Members later members →
      Members (before ++ '"' :: inside ++ '"' :: gap ++ ':' :: text ++ ',' :: later)
        ((content units, value) :: members)

end

/-- The grammar derives the tree from a text. -/
def Denotes (text : String) (tree : Value) : Prop :=
  Padded text.toList tree

/-- A minus sign or a digit. -/
def StartsNumber (c : Char) : Prop :=
  c = '-' ∨ c.isDigit = true

theorem StartsNumber.ne {c d : Char} (h : StartsNumber c) (hminus : d ≠ '-')
    (hdigit : d.isDigit = false) : c ≠ d := by
  rintro rfl
  rcases h with hc | hc
  · exact hminus hc
  · rw [hdigit] at hc
    cases hc

theorem StartsNumber.isBlank_eq {c : Char} (h : StartsNumber c) : isBlank c = false := by
  simp [isBlank, h.ne (d := ' ') (by decide) rfl, h.ne (d := '\t') (by decide) rfl,
    h.ne (d := '\n') (by decide) rfl, h.ne (d := '\r') (by decide) rfl]

theorem Number.exists_cons {text : List Char} {found : Numeral} (h : Number text found) :
    ∃ c rest, text = c :: rest ∧ StartsNumber c := by
  obtain ⟨hwhole, -, -, -⟩ := h
  rename_i negative _ _ whole _ _
  cases negative with
  | true => exact ⟨'-', _, rfl, .inl rfl⟩
  | false =>
    obtain ⟨c, whole, rfl⟩ := List.exists_cons_of_ne_nil hwhole.nonempty
    exact ⟨c, _, rfl, .inr (hwhole.isDigit c (by simp))⟩

/-- No value begins with a blank or with a bracket that closes. -/
theorem Spells.exists_cons {text : List Char} {value : Value} (h : Spells text value) :
    ∃ c rest, text = c :: rest ∧ isBlank c = false ∧ c ≠ ']' := by
  cases h with
  | number hnumber =>
    obtain ⟨c, rest, rfl, hc⟩ := hnumber.exists_cons
    exact ⟨c, rest, rfl, hc.isBlank_eq, hc.ne (by decide) rfl⟩
  | _ => exact ⟨_, _, rfl, by decide, by decide⟩

section Completeness

theorem value_of_number (bound : Nat) {c : Char} (h : StartsNumber c) (rest : List Char) :
    value (bound + 1) (c :: rest) =
      (numeral (c :: rest)).bind fun found => some (.number found.1, found.2) := by
  simp [value, skipBlanks_cons h.isBlank_eq, h.ne (d := 'n') (by decide) rfl,
    h.ne (d := 't') (by decide) rfl, h.ne (d := 'f') (by decide) rfl,
    h.ne (d := '"') (by decide) rfl, h.ne (d := '[') (by decide) rfl,
    h.ne (d := '{') (by decide) rfl]

theorem value_blank_append (bound : Nat) {blanks : List Char} (h : Blank blanks)
    (rest : List Char) : value bound (blanks ++ rest) = value bound rest := by
  cases bound with
  | zero => rfl
  | succ bound => rw [value, value, skipBlanks_append h]

theorem quoted_append {inside : List Char} {units : List Nat} (h : Inside inside units)
    (rest : List Char) : quoted (inside ++ '"' :: rest) = some (content units, rest) :=
  quoted_eq_some_iff.mpr ⟨inside, units, rfl, h, rfl⟩

/-- A comma, a bracket that closes, or the end. -/
def Stops (rest : List Char) : Prop :=
  ∀ c ∈ rest.head?, c = ',' ∨ c = ']' ∨ c = '}'

theorem Stops.skipBlanks_eq {rest : List Char} (h : Stops rest) : skipBlanks rest = rest := by
  cases rest with
  | nil => rfl
  | cons c rest =>
    refine skipBlanks_cons ?_ rest
    rcases h c rfl with rfl | rfl | rfl <;> decide

theorem Stops.endsNumber {blanks rest : List Char} (h : Stops rest) (hblanks : Blank blanks) :
    EndsNumber (blanks ++ rest) := by
  intro c hc
  cases blanks with
  | nil => rcases h c hc with rfl | rfl | rfl <;> decide
  | cons b blanks =>
    obtain rfl : b = c := Option.some.inj hc
    have hblank := hblanks b (by simp)
    simp only [isBlank, Bool.or_eq_true, decide_eq_true_eq] at hblank
    rcases hblank with ((rfl | rfl) | rfl) | rfl <;> decide

/-- What the parser makes of all texts that are not too long for a bound. -/
structure Takes (bound : Nat) : Prop where
  ofSpells : ∀ {text rest : List Char} {found : Value}, Spells text found →
    2 * text.length ≤ bound → EndsNumber rest → value bound (text ++ rest) = some (found, rest)
  ofItems : ∀ {text rest : List Char} {found : List Value}, Items text found →
    2 * text.length < bound → items bound (text ++ ']' :: rest) = some (found, rest)
  ofMembers : ∀ {text rest : List Char} {found : List (Option String × Value)},
    Members text found → 2 * text.length < bound →
      members bound (text ++ '}' :: rest) = some (found, rest)

namespace Takes

variable {bound : Nat}

theorem padded (h : Takes bound) {text : List Char} {found : Value} (rest : List Char)
    (hpadded : Padded text found) (hlength : 2 * text.length ≤ bound) (hrest : Stops rest) :
    ∃ after, value bound (text ++ rest) = some (found, after) ∧ skipBlanks after = rest := by
  obtain ⟨hbefore, hspells, hafter⟩ := hpadded
  rename_i before text after
  refine ⟨after ++ rest, ?_, ?_⟩
  · rw [List.append_assoc, List.append_assoc, value_blank_append bound hbefore]
    simp only [List.length_append] at hlength
    exact h.ofSpells hspells (by omega) (hrest.endsNumber hafter)
  · rw [skipBlanks_append hafter, hrest.skipBlanks_eq]

theorem succ_items (h : Takes bound) {text rest : List Char} {found : List Value}
    (hitems : Items text found) (hlength : 2 * text.length < bound + 1) :
    items (bound + 1) (text ++ ']' :: rest) = some (found, rest) := by
  cases hitems with
  | last hpadded =>
    obtain ⟨after, hvalue, hafter⟩ := h.padded (']' :: rest) hpadded (by omega)
      (by rintro _ ⟨⟩; simp)
    simp [items, hvalue, hafter]
  | @more text later value values hpadded hlater =>
    simp only [List.length_append, List.length_cons] at hlength
    obtain ⟨after, hvalue, hafter⟩ := h.padded (',' :: (later ++ ']' :: rest)) hpadded
      (by omega) (by rintro _ ⟨⟩; simp)
    simp [items, hvalue, hafter, h.ofItems hlater (by omega)]

theorem succ_members (h : Takes bound) {text rest : List Char}
    {found : List (Option String × Value)} (hmembers : Members text found)
    (hlength : 2 * text.length < bound + 1) :
    members (bound + 1) (text ++ '}' :: rest) = some (found, rest) := by
  cases hmembers with
  | last hbefore hinside hgap hpadded =>
    simp only [List.length_append, List.length_cons] at hlength
    obtain ⟨after, hvalue, hafter⟩ := h.padded ('}' :: rest) hpadded (by omega)
      (by rintro _ ⟨⟩; simp)
    simp [members, skipBlanks_append hbefore, skipBlanks_cons (c := '"') rfl,
      quoted_append hinside, skipBlanks_append hgap, skipBlanks_cons (c := ':') rfl, hvalue,
      hafter]
  | @more _ _ _ _ later _ _ _ hbefore hinside hgap hpadded hlater =>
    simp only [List.length_append, List.length_cons] at hlength
    obtain ⟨after, hvalue, hafter⟩ := h.padded (',' :: (later ++ '}' :: rest)) hpadded
      (by omega) (by rintro _ ⟨⟩; simp)
    simp [members, skipBlanks_append hbefore, skipBlanks_cons (c := '"') rfl,
      quoted_append hinside, skipBlanks_append hgap, skipBlanks_cons (c := ':') rfl, hvalue,
      hafter, h.ofMembers hlater (by omega)]

end Takes

theorem Padded.skipBlanks_append {text : List Char} {found : Value} (h : Padded text found)
    (rest : List Char) : ∃ c after, skipBlanks (text ++ rest) = c :: after ∧ c ≠ ']' := by
  obtain ⟨hbefore, hspells, -⟩ := h
  obtain ⟨c, after, rfl, hblank, hbracket⟩ := hspells.exists_cons
  simp only [List.append_assoc, List.cons_append]
  exact ⟨c, _, (Json.skipBlanks_append hbefore _).trans (skipBlanks_cons hblank _), hbracket⟩

theorem Items.skipBlanks_append {text : List Char} {found : List Value} (h : Items text found)
    (rest : List Char) : ∃ c after, skipBlanks (text ++ rest) = c :: after ∧ c ≠ ']' := by
  cases h with
  | last hpadded => exact hpadded.skipBlanks_append rest
  | more hpadded =>
    rw [List.append_assoc]
    exact hpadded.skipBlanks_append _

theorem Members.skipBlanks_append {text : List Char} {found : List (Option String × Value)}
    (h : Members text found) (rest : List Char) :
    ∃ after, skipBlanks (text ++ rest) = '"' :: after := by
  cases h with
  | last hbefore | more hbefore =>
    simp only [List.append_assoc, List.cons_append]
    exact ⟨_, (Json.skipBlanks_append hbefore _).trans (skipBlanks_cons rfl _)⟩

theorem Takes.succ_value {bound : Nat} (h : Takes bound) {text rest : List Char}
    {found : Value} (hspells : Spells text found) (hlength : 2 * text.length ≤ bound + 1)
    (hrest : EndsNumber rest) : value (bound + 1) (text ++ rest) = some (found, rest) := by
  cases hspells with
  | null => simp [value, skipBlanks_cons (c := 'n') rfl]
  | yes => simp [value, skipBlanks_cons (c := 't') rfl]
  | no => simp [value, skipBlanks_cons (c := 'f') rfl]
  | number hnumber =>
    obtain ⟨c, after, rfl, hc⟩ := hnumber.exists_cons
    have hread := hnumber.numeral_append hrest
    rw [List.cons_append] at hread ⊢
    rw [value_of_number bound hc, hread]
    rfl
  | string hinside =>
    simp [value, skipBlanks_cons (c := '"') rfl, quoted_append hinside]
  | emptyArray hblank =>
    simp [value, skipBlanks_cons (c := '[') rfl, skipBlanks_append hblank,
      skipBlanks_cons (c := ']') rfl]
  | @array text _ hitems =>
    simp only [List.length_append, List.length_cons] at hlength
    -- The first item does not begin with the bracket that would make the array an empty one.
    obtain ⟨c, after, hskip, hc⟩ := hitems.skipBlanks_append (']' :: rest)
    simp [value, skipBlanks_cons (c := '[') rfl, hskip, hc, h.ofItems hitems (by omega)]
  | emptyObject hblank =>
    simp [value, skipBlanks_cons (c := '{') rfl, skipBlanks_append hblank,
      skipBlanks_cons (c := '}') rfl]
  | @object text _ hmembers =>
    simp only [List.length_append, List.length_cons] at hlength
    obtain ⟨after, hskip⟩ := hmembers.skipBlanks_append ('}' :: rest)
    simp [value, skipBlanks_cons (c := '{') rfl, hskip, h.ofMembers hmembers (by omega)]

/-- By induction on the bound; twice the length of a text is enough for all calls. -/
theorem takes (bound : Nat) : Takes bound := by
  induction bound with
  | zero =>
    refine ⟨fun hspells hlength => ?_, fun _ hlength => absurd hlength (Nat.not_lt_zero _),
      fun _ hlength => absurd hlength (Nat.not_lt_zero _)⟩
    obtain ⟨c, after, rfl, -⟩ := hspells.exists_cons
    simp at hlength
  | succ bound ih => exact ⟨ih.succ_value, ih.succ_items, ih.succ_members⟩

end Completeness

section Soundness

/-- What the parser returns within some bound was derived by the grammar. -/
structure Derives (bound : Nat) : Prop where
  ofValue : ∀ {text rest : List Char} {found : Value}, value bound text = some (found, rest) →
    ∃ before spelling, text = before ++ spelling ++ rest ∧ Blank before ∧ Spells spelling found
  ofItems : ∀ {text rest : List Char} {found : List Value},
    items bound text = some (found, rest) →
      ∃ inside, text = inside ++ ']' :: rest ∧ Items inside found
  ofMembers : ∀ {text rest : List Char} {found : List (Option String × Value)},
    members bound text = some (found, rest) →
      ∃ inside, text = inside ++ '}' :: rest ∧ Members inside found

namespace Derives

variable {bound : Nat}

theorem padded (h : Derives bound) {text after rest : List Char} {found : Value}
    (hvalue : value bound text = some (found, after)) (hrest : skipBlanks after = rest) :
    ∃ inside, text = inside ++ rest ∧ Padded inside found := by
  obtain ⟨before, spelling, rfl, hbefore, hspells⟩ := h.ofValue hvalue
  obtain ⟨blanks, hblanks, hafter⟩ := exists_blank_append after
  refine ⟨before ++ spelling ++ blanks, ?_, .mk hbefore hspells hblanks⟩
  rw [hafter, hrest]
  simp only [List.append_assoc]

theorem succ_items (h : Derives bound) {text rest : List Char} {found : List Value}
    (hitems : items (bound + 1) text = some (found, rest)) :
    ∃ inside, text = inside ++ ']' :: rest ∧ Items inside found := by
  rw [items] at hitems
  obtain ⟨⟨first, after⟩, hfirst, hnext⟩ := Option.bind_eq_some_iff.mp hitems
  dsimp only at hnext
  split at hnext
  · rename_i hskip
    cases hnext
    obtain ⟨inside, rfl, hpadded⟩ := h.padded hfirst hskip
    exact ⟨inside, rfl, .last hpadded⟩
  · rename_i between hskip
    obtain ⟨⟨later, afterLater⟩, hlater, hfound⟩ := Option.bind_eq_some_iff.mp hnext
    cases hfound
    obtain ⟨inside, rfl, hpadded⟩ := h.padded hfirst hskip
    obtain ⟨insideLater, rfl, hderived⟩ := h.ofItems hlater
    exact ⟨inside ++ ',' :: insideLater, by simp, .more hpadded hderived⟩
  · cases hnext

theorem succ_members (h : Derives bound) {text rest : List Char}
    {found : List (Option String × Value)}
    (hmembers : members (bound + 1) text = some (found, rest)) :
    ∃ inside, text = inside ++ '}' :: rest ∧ Members inside found := by
  rw [members] at hmembers
  obtain ⟨before, hbefore, htext⟩ := exists_blank_append text
  split at hmembers
  · rename_i hname
    obtain ⟨⟨name, afterName⟩, hquoted, hnext⟩ := Option.bind_eq_some_iff.mp hmembers
    dsimp only at hnext
    obtain ⟨insideName, units, hnameText, hinside, rfl⟩ := quoted_eq_some_iff.mp hquoted
    obtain ⟨gap, hgap, hafterName⟩ := exists_blank_append afterName
    split at hnext
    · rename_i hcolon
      obtain ⟨⟨first, after⟩, hfirst, hlast⟩ := Option.bind_eq_some_iff.mp hnext
      dsimp only at hlast
      split at hlast
      · rename_i hskip
        cases hlast
        obtain ⟨inside, hinsideText, hpadded⟩ := h.padded hfirst hskip
        refine ⟨_, ?_, .last hbefore hinside hgap hpadded⟩
        rw [htext, hname, hnameText, hafterName, hcolon, hinsideText]
        simp
      · rename_i between hskip
        obtain ⟨⟨later, afterLater⟩, hlater, hfound⟩ := Option.bind_eq_some_iff.mp hlast
        cases hfound
        obtain ⟨inside, hinsideText, hpadded⟩ := h.padded hfirst hskip
        obtain ⟨insideLater, hlaterText, hderived⟩ := h.ofMembers hlater
        refine ⟨_, ?_, .more hbefore hinside hgap hpadded hderived⟩
        rw [htext, hname, hnameText, hafterName, hcolon, hinsideText, hlaterText]
        simp
      · cases hlast
    · cases hnext
  · cases hmembers

theorem succ_value (h : Derives bound) {text rest : List Char} {found : Value}
    (hvalue : value (bound + 1) text = some (found, rest)) :
    ∃ before spelling, text = before ++ spelling ++ rest ∧ Blank before ∧
      Spells spelling found := by
  rw [value] at hvalue
  obtain ⟨before, hbefore, htext⟩ := exists_blank_append text
  -- The first character after the blanks decides; the cases are those of the reader.
  suffices hspelling : ∃ spelling, skipBlanks text = spelling ++ rest ∧ Spells spelling found by
    obtain ⟨spelling, hskip, hspells⟩ := hspelling
    exact ⟨before, spelling, by rw [htext, hskip, List.append_assoc], hbefore, hspells⟩
  split at hvalue
  · rename_i hskip
    cases hvalue
    exact ⟨_, hskip, .null⟩
  · rename_i hskip
    cases hvalue
    exact ⟨_, hskip, .yes⟩
  · rename_i hskip
    cases hvalue
    exact ⟨_, hskip, .no⟩
  · rename_i hskip
    obtain ⟨⟨name, after⟩, hquoted, hfound⟩ := Option.bind_eq_some_iff.mp hvalue
    cases hfound
    obtain ⟨inside, units, rfl, hinside, rfl⟩ := quoted_eq_some_iff.mp hquoted
    exact ⟨_, by rw [hskip]; simp, .string hinside⟩
  · rename_i afterBracket hskip
    split at hvalue
    · rename_i hclose
      cases hvalue
      obtain ⟨blanks, hblanks, hinside⟩ := exists_blank_append afterBracket
      exact ⟨_, by rw [hskip, hinside, hclose]; simp, .emptyArray hblanks⟩
    · obtain ⟨⟨values, after⟩, hitems, hfound⟩ := Option.bind_eq_some_iff.mp hvalue
      cases hfound
      obtain ⟨inside, rfl, hderived⟩ := h.ofItems hitems
      exact ⟨_, by rw [hskip]; simp, .array hderived⟩
  · rename_i afterBracket hskip
    split at hvalue
    · rename_i hclose
      cases hvalue
      obtain ⟨blanks, hblanks, hinside⟩ := exists_blank_append afterBracket
      exact ⟨_, by rw [hskip, hinside, hclose]; simp, .emptyObject hblanks⟩
    · obtain ⟨⟨values, after⟩, hmembers, hfound⟩ := Option.bind_eq_some_iff.mp hvalue
      cases hfound
      obtain ⟨inside, rfl, hderived⟩ := h.ofMembers hmembers
      exact ⟨_, by rw [hskip]; simp, .object hderived⟩
  · obtain ⟨⟨numeral, after⟩, hnumeral, hfound⟩ := Option.bind_eq_some_iff.mp hvalue
    cases hfound
    obtain ⟨spelling, htext, hnumber⟩ := exists_number hnumeral
    exact ⟨spelling, htext, .number hnumber⟩

end Derives

/-- By induction on the bound; no call succeeds without one. -/
theorem derives (bound : Nat) : Derives bound := by
  induction bound with
  | zero =>
    refine ⟨fun h => ?_, fun h => ?_, fun h => ?_⟩
    · cases h
    · cases h
    · cases h
  | succ bound ih => exact ⟨ih.succ_value, ih.succ_items, ih.succ_members⟩

end Soundness

/-- The parser returns a tree if and only if the grammar derives it. -/
theorem parse_eq_some_iff {text : String} {tree : Value} :
    parse text = some tree ↔ Denotes text tree := by
  constructor
  · intro h
    obtain ⟨⟨found, after⟩, hvalue, hfound⟩ := Option.bind_eq_some_iff.mp h
    dsimp only at hfound
    split at hfound
    · rename_i hafter
      cases hfound
      obtain ⟨inside, htext, hpadded⟩ := (derives _).padded hvalue hafter
      rw [List.append_nil] at htext
      rw [Denotes, htext]
      exact hpadded
    · cases hfound
  · intro h
    obtain ⟨after, hvalue, hafter⟩ := (takes (2 * text.length + 1)).padded [] h
      (by rw [String.length_toList]; omega) (by rintro _ ⟨⟩)
    rw [List.append_nil] at hvalue
    simp [parse, hvalue, hafter]

end ChipEight.Json
