import ChipEight.Instruction.Decode
import ChipEight.Proofs.Instruction.Glyph

/-!
Which instructions read the same. All kinds of instructions clash with each other in their
texts, with two exceptions: the store and the load of the registers up to some register read
as those of a range that begins with the first register.
-/

namespace ChipEight

open Glyph

namespace Condition

def spelling : Condition → List Glyph
  | .equalsByte x value => marks "SE  " ++ register x ++ marks ", " ++ digits 2 value.toNat
  | .differsByte x value => marks "SNE " ++ register x ++ marks ", " ++ digits 2 value.toNat
  | .equals x y => marks "SE  " ++ register x ++ marks ", " ++ register y
  | .differs x y => marks "SNE " ++ register x ++ marks ", " ++ register y
  | .keyDown x => marks "SKP " ++ register x
  | .keyUp x => marks "SKNP " ++ register x

def withDigits : Condition → List Nibble → Condition
  | .equalsByte _ _, ds => .equalsByte (ds.headD 0) (UInt8.ofNat (number ds.tail))
  | .differsByte _ _, ds => .differsByte (ds.headD 0) (UInt8.ofNat (number ds.tail))
  | .equals _ _, ds => .equals (ds.headD 0) (ds.tail.headD 0)
  | .differs _ _, ds => .differs (ds.headD 0) (ds.tail.headD 0)
  | .keyDown _, ds => .keyDown (ds.headD 0)
  | .keyUp _, ds => .keyUp (ds.headD 0)

end Condition

namespace Scroll

def spelling : Scroll → List Glyph
  | .down rows => marks "SCD " ++ digits 1 rows.val
  | .up rows => marks "SCU " ++ digits 1 rows.val
  | .right => marks "SCR"
  | .left => marks "SCL"

def withDigits : Scroll → List Nibble → Scroll
  | .down _, ds => .down (ds.headD 0)
  | .up _, ds => .up (ds.headD 0)
  | move, _ => move

end Scroll

namespace Instruction

/-- The glyphs of an instruction in a listing, where a long load shows its second word. -/
def spelling (operand : UInt16) : Instruction → List Glyph
  | .native target => marks "SYS " ++ digits 3 target.val
  | .scroll move => move.spelling
  | .clearScreen => marks "CLS"
  | .returnFromCall => marks "RET"
  | .exit => marks "EXIT"
  | .setResolution high => marks (if high then "HIGH" else "LOW")
  | .jump target => marks "JP  " ++ digits 3 target.val
  | .call target => marks "CALL " ++ digits 3 target.val
  | .skip condition => condition.spelling
  | .storeRange x y => marks "LD  [I], " ++ register x ++ marks "-" ++ register y
  | .loadRange x y => marks "LD  " ++ register x ++ marks "-" ++ register y ++ marks ", [I]"
  | .setByte x value => marks "LD  " ++ register x ++ marks ", " ++ digits 2 value.toNat
  | .addByte x value => marks "ADD " ++ register x ++ marks ", " ++ digits 2 value.toNat
  | .arithmetic operation x y => marks operation.word ++ register x ++ marks ", " ++ register y
  | .setIndex target => marks "LD  I, " ++ digits 3 target.val
  | .jumpOffset _ base => marks "JP  V0, " ++ digits 3 base.val
  | .random x mask => marks "RND " ++ register x ++ marks ", " ++ digits 2 mask.toNat
  | .draw x y rows =>
    marks "DRW " ++ register x ++ marks ", " ++ register y ++ marks ", " ++ digits 1 rows.val
  | .setIndexLong => marks "LD  I, " ++ digits 4 operand.toNat
  | .selectPlanes mask => marks "PLANE " ++ digits 1 mask.val
  | .loadPattern => marks "AUDIO [I]"
  | .readDelay x => marks "LD  " ++ register x ++ marks ", DT"
  | .awaitKey x => marks "LD  " ++ register x ++ marks ", K"
  | .setDelay x => marks "LD  DT, " ++ register x
  | .setSound x => marks "LD  ST, " ++ register x
  | .addToIndex x => marks "ADD I, " ++ register x
  | .pointToDigit x => marks "LD  F, " ++ register x
  | .pointToBigDigit x => marks "LD  HF, " ++ register x
  | .storeDecimal x => marks "BCD " ++ register x
  | .setPitch x => marks "PITCH " ++ register x
  | .storeThrough x => marks "LD  [I], " ++ register 0 ++ marks "-" ++ register x
  | .loadThrough x => marks "LD  " ++ register 0 ++ marks "-" ++ register x ++ marks ", [I]"
  | .saveFlags x => marks "LD  R, V0-" ++ register x
  | .restoreFlags x => marks "LD  V0-" ++ register x ++ marks ", R"
  | .unknown word => marks ".DW " ++ digits 4 word.toNat

/-- The instruction of the same kind whose operands have the given digits. -/
def withDigits : Instruction → List Nibble → Instruction
  | .native _, ds => .native (shortAddress (UInt16.ofNat (number ds)))
  | .scroll move, ds => .scroll (move.withDigits ds)
  | .jump _, ds => .jump (shortAddress (UInt16.ofNat (number ds)))
  | .call _, ds => .call (shortAddress (UInt16.ofNat (number ds)))
  | .skip condition, ds => .skip (condition.withDigits ds)
  | .storeRange _ _, ds => .storeRange (ds.headD 0) (ds.tail.headD 0)
  | .loadRange _ _, ds => .loadRange (ds.headD 0) (ds.tail.headD 0)
  | .setByte _ _, ds => .setByte (ds.headD 0) (UInt8.ofNat (number ds.tail))
  | .addByte _ _, ds => .addByte (ds.headD 0) (UInt8.ofNat (number ds.tail))
  | .arithmetic operation _ _, ds => .arithmetic operation (ds.headD 0) (ds.tail.headD 0)
  | .setIndex _, ds => .setIndex (shortAddress (UInt16.ofNat (number ds)))
  | .jumpOffset _ _, ds => .jumpOffset (ds.headD 0) (shortAddress (UInt16.ofNat (number ds)))
  | .random _ _, ds => .random (ds.headD 0) (UInt8.ofNat (number ds.tail))
  | .draw _ _ _, ds => .draw (ds.headD 0) (ds.tail.headD 0) (ds.tail.tail.headD 0)
  | .selectPlanes _, ds => .selectPlanes (ds.headD 0)
  | .readDelay _, ds => .readDelay (ds.headD 0)
  | .awaitKey _, ds => .awaitKey (ds.headD 0)
  | .setDelay _, ds => .setDelay (ds.headD 0)
  | .setSound _, ds => .setSound (ds.headD 0)
  | .addToIndex _, ds => .addToIndex (ds.headD 0)
  | .pointToDigit _, ds => .pointToDigit (ds.headD 0)
  | .pointToBigDigit _, ds => .pointToBigDigit (ds.headD 0)
  | .storeDecimal _, ds => .storeDecimal (ds.headD 0)
  | .setPitch _, ds => .setPitch (ds.headD 0)
  | .saveFlags _, ds => .saveFlags (ds.headD 0)
  | .restoreFlags _, ds => .restoreFlags (ds.headD 0)
  | .unknown _, ds => .unknown (UInt16.ofNat (number ds))
  | instruction, _ => instruction

/-- The range that an instruction stores or loads, as an instruction of its own. -/
def asRange : Instruction → Instruction
  | .storeThrough x => .storeRange 0 x
  | .loadThrough x => .loadRange 0 x
  | instruction => instruction

def kind (instruction : Instruction) : Instruction :=
  instruction.withDigits []

/-- One instruction of each kind, but for the two that read as ranges. -/
def kinds : List Instruction :=
  [.native (shortAddress 0), .scroll (.down 0), .scroll (.up 0), .scroll .right, .scroll .left,
    .clearScreen, .returnFromCall, .exit, .setResolution false, .setResolution true,
    .jump (shortAddress 0), .call (shortAddress 0), .skip (.equalsByte 0 0),
    .skip (.differsByte 0 0), .skip (.equals 0 0), .skip (.differs 0 0), .skip (.keyDown 0),
    .skip (.keyUp 0), .storeRange 0 0, .loadRange 0 0, .setByte 0 0, .addByte 0 0,
    .arithmetic .copy 0 0, .arithmetic .or 0 0, .arithmetic .and 0 0, .arithmetic .xor 0 0,
    .arithmetic .add 0 0, .arithmetic .subtract 0 0, .arithmetic .shiftRight 0 0,
    .arithmetic .subtractFrom 0 0, .arithmetic .shiftLeft 0 0, .setIndex (shortAddress 0),
    .jumpOffset 0 (shortAddress 0), .random 0 0, .draw 0 0 0, .setIndexLong, .selectPlanes 0,
    .loadPattern, .readDelay 0, .awaitKey 0, .setDelay 0, .setSound 0, .addToIndex 0,
    .pointToDigit 0, .pointToBigDigit 0, .storeDecimal 0, .setPitch 0, .saveFlags 0,
    .restoreFlags 0, .unknown 0]

theorem kinds_clash : ∀ k ∈ kinds, ∀ l ∈ kinds,
    k = l ∨ textsClash (k.spelling 0) (l.spelling 0) = true := by
  decide +kernel

theorem kind_asRange_mem (instruction : Instruction) : instruction.asRange.kind ∈ kinds := by
  cases instruction with
  | scroll move => cases move <;> exact List.mem_of_elem_eq_true rfl
  | setResolution high => cases high <;> exact List.mem_of_elem_eq_true rfl
  | skip condition => cases condition <;> exact List.mem_of_elem_eq_true rfl
  | arithmetic operation x y => cases operation <;> exact List.mem_of_elem_eq_true rfl
  | _ => exact List.mem_of_elem_eq_true rfl

theorem withDigits_kind (instruction : Instruction) (ds : List Nibble) :
    instruction.kind.withDigits ds = instruction.withDigits ds := by
  cases instruction with
  | scroll move => cases move <;> rfl
  | skip condition => cases condition <;> rfl
  | _ => rfl

theorem spelling_asRange (operand : UInt16) (instruction : Instruction) :
    instruction.asRange.spelling operand = instruction.spelling operand := by
  cases instruction <;> rfl

theorem map_cleared_spelling (operand : UInt16) (instruction : Instruction) :
    (instruction.spelling operand).map cleared = (instruction.kind.spelling 0).map cleared := by
  cases instruction with
  | scroll move =>
    cases move <;> simp [kind, withDigits, Scroll.withDigits, spelling, Scroll.spelling]
  | skip condition =>
    cases condition <;>
      simp [kind, withDigits, Condition.withDigits, spelling, Condition.spelling, register]
  | _ => simp [kind, withDigits, spelling, register]

theorem map_char_spelling {instruction : Instruction} (operand : UInt16)
    (h : instruction ≠ .setIndexLong) :
    (instruction.spelling operand).map char = instruction.mnemonic.toList := by
  have hzero : Hex.digits 1 0 = ['0'] := rfl
  cases instruction with
  | setIndexLong => exact absurd rfl h
  | scroll move =>
    cases move <;> simp [spelling, Scroll.spelling, mnemonic, Scroll.mnemonic, Hex.fixed]
  | skip condition =>
    cases condition <;>
      simp [spelling, Condition.spelling, mnemonic, Condition.mnemonic, register, Register.text,
        byteText, Hex.fixed]
  | _ =>
    simp [spelling, mnemonic, register, Register.text, ShortAddress.text, byteText, Hex.fixed,
      hzero]

theorem shortAddress_number (target : ShortAddress) :
    shortAddress (UInt16.ofNat (number ((digits 3 target.val).filterMap digit?))) = target := by
  have hword : target.val < UInt16.size := Nat.lt_trans target.isLt (by decide)
  rw [number_digits_of_lt target.isLt, shortAddress, UInt16.toNat_ofNat_of_lt' hword]
  exact Fin.ofNat_val_eq_self target

theorem headD_digits_target (target : ShortAddress) :
    ((digits 3 target.val).filterMap digit?).headD 0 = Fin.ofNat 16 (target.val / 256) := by
  simp [digits, digit?, Nat.div_div_eq_div_mul]

/-- The register of a jump with an offset is the top digit of its base, as in every word. -/
def IsConsistent : Instruction → Prop
  | .jumpOffset x base => x = Fin.ofNat 16 (base.val / 256)
  | _ => True

theorem isConsistent_decodeSystem (target : ShortAddress) :
    (decodeSystem target).IsConsistent := by
  unfold decodeSystem
  split <;> trivial

theorem isConsistent_decodeArithmetic (x y : Register) (word : UInt16) :
    (decodeArithmetic x y word).IsConsistent := by
  unfold decodeArithmetic
  split <;> trivial

theorem isConsistent_decodeDevice (x : Register) (word : UInt16) :
    (decodeDevice x word).IsConsistent := by
  unfold decodeDevice
  split <;> trivial

theorem nibble_two_eq (word : UInt16) :
    nibble word 2 = Fin.ofNat 16 ((shortAddress word).val / 256) := by
  apply Fin.val_inj.mp
  simp only [nibble, shortAddress, Fin.val_ofNat, Nat.shiftRight_eq_div_pow]
  omega

theorem isConsistent_decode (word : UInt16) : (decode word).IsConsistent := by
  unfold decode
  dsimp only
  split
  · exact isConsistent_decodeSystem _
  · trivial
  · trivial
  · trivial
  · trivial
  · split <;> trivial
  · trivial
  · trivial
  · exact isConsistent_decodeArithmetic _ _ _
  · split <;> trivial
  · trivial
  · exact nibble_two_eq word
  · trivial
  · trivial
  · split <;> trivial
  · split
    · trivial
    · exact isConsistent_decodeDevice _ _

theorem isConsistent_asRange {instruction : Instruction} (h : instruction.IsConsistent) :
    instruction.asRange.IsConsistent := by
  cases instruction with
  | jumpOffset x base => exact h
  | _ => trivial

/-- The digits in the text of an instruction are those of its operands. -/
theorem withDigits_spelling {instruction : Instruction} (operand : UInt16)
    (h : instruction.IsConsistent) :
    instruction.withDigits ((instruction.spelling operand).filterMap digit?) = instruction := by
  cases instruction with
  | scroll move => cases move <;> simp [spelling, Scroll.spelling, withDigits, Scroll.withDigits]
  | skip condition =>
    cases condition <;>
      simp [spelling, Condition.spelling, withDigits, Condition.withDigits, ofNat_number_byte]
  | jumpOffset x base =>
    have hx : x = Fin.ofNat 16 (base.val / 256) := h
    have hdigits : ((jumpOffset x base).spelling operand).filterMap digit? =
        (digits 3 base.val).filterMap digit? := by simp [spelling]
    rw [hdigits, withDigits, headD_digits_target, shortAddress_number, ← hx]
  | _ =>
    simp only [spelling, withDigits, List.filterMap_append, filterMap_digit?_marks,
      filterMap_digit?_register, filterMap_digit?_digit, List.nil_append, List.append_nil,
      List.cons_append, List.headD_cons, List.tail_cons, ofNat_number_byte, shortAddress_number,
      ofNat_number_word]

/-- The second word where it is part of the instruction. -/
def operand? (operand : UInt16) : Instruction → Option UInt16
  | .setIndexLong => some operand
  | _ => none

/-- Of the second word, a text shows what the instruction takes. -/
theorem spelling_eq_iff (instruction : Instruction) (operand operand' : UInt16) :
    instruction.spelling operand = instruction.spelling operand' ↔
      instruction.operand? operand = instruction.operand? operand' := by
  cases instruction with
  | setIndexLong =>
    rw [spelling, spelling, List.append_cancel_left_eq, operand?, operand?, Option.some.injEq]
    exact ⟨eq_of_digits_eq, fun h => h ▸ rfl⟩
  | _ => exact iff_of_true rfl rfl

theorem kind_eq_of_map_char_eq {first second : Instruction} {operand operand' : UInt16}
    (hchar : (first.spelling operand).map char = (second.spelling operand').map char) :
    first.asRange.kind = second.asRange.kind := by
  have hquiet := textsClash_eq_false hchar
  rw [← spelling_asRange operand first, ← spelling_asRange operand' second,
    ← textsClash_cleared, map_cleared_spelling operand, map_cleared_spelling operand',
    textsClash_cleared] at hquiet
  rcases kinds_clash _ first.kind_asRange_mem _ second.kind_asRange_mem with hkind | hclash
  · exact hkind
  · rw [hquiet] at hclash
    cases hclash

theorem spelling_eq_of_map_char_eq {first second : Instruction} {operand operand' : UInt16}
    (hchar : (first.spelling operand).map char = (second.spelling operand').map char) :
    first.spelling operand = second.spelling operand' := by
  apply eq_of_map_char_eq _ hchar
  rw [← spelling_asRange operand first, ← spelling_asRange operand' second,
    map_cleared_spelling operand, map_cleared_spelling operand', kind_eq_of_map_char_eq hchar]

theorem asRange_eq_of_map_char_eq {first second : Instruction} {operand operand' : UInt16}
    (hfirst : first.IsConsistent) (hsecond : second.IsConsistent)
    (hchar : (first.spelling operand).map char = (second.spelling operand').map char) :
    first.asRange = second.asRange := by
  have hspelling := spelling_eq_of_map_char_eq hchar
  rw [← withDigits_spelling operand (isConsistent_asRange hfirst),
    ← withDigits_spelling operand' (isConsistent_asRange hsecond), spelling_asRange,
    spelling_asRange, hspelling, ← withDigits_kind, kind_eq_of_map_char_eq hchar, withDigits_kind]

theorem operand?_asRange (operand : UInt16) (instruction : Instruction) :
    instruction.asRange.operand? operand = instruction.operand? operand := by
  cases instruction <;> rfl

/-- Instructions read the same if and only if they are the same, up to the two ways to write a
range that begins with the first register. -/
theorem map_char_spelling_eq_iff {first second : Instruction} (operand operand' : UInt16)
    (hfirst : first.IsConsistent) (hsecond : second.IsConsistent) :
    (first.spelling operand).map char = (second.spelling operand').map char ↔
      first.asRange = second.asRange ∧ first.operand? operand = second.operand? operand' := by
  rw [← operand?_asRange operand, ← operand?_asRange operand']
  constructor
  · intro hchar
    have hrange := asRange_eq_of_map_char_eq hfirst hsecond hchar
    have hspelling := spelling_eq_of_map_char_eq hchar
    rw [← spelling_asRange, ← spelling_asRange operand', hrange] at hspelling
    rw [hrange]
    exact ⟨rfl, (spelling_eq_iff _ _ _).mp hspelling⟩
  · rintro ⟨hrange, hoperand⟩
    rw [hrange] at hoperand
    rw [← spelling_asRange, ← spelling_asRange operand', hrange,
      (spelling_eq_iff _ _ _).mpr hoperand]

end Instruction

end ChipEight
