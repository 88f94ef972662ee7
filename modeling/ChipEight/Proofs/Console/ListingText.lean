import ChipEight.Console.Listing
import ChipEight.Proofs.Instruction.Spelling
import Mathlib.Data.List.Forall2

/-!
What the text of a listing tells of the program. Each line shows the address, the instruction
and the word after a long load. It leaves open only by which of two instructions the registers
up to some register are stored or loaded: one moves the index on and the other does not.
-/

namespace ChipEight

namespace Entry

/-- What a line shows. -/
def reading (memory : Memory) (entry : Entry) : Address × Instruction × Option UInt16 :=
  (entry.address, entry.instruction.asRange,
    entry.instruction.operand? (memory.readWord (entry.address + 2)))

theorem ofMemory_eq {memory : Memory} {address : Address} {instruction : Instruction}
    (hdecode : Instruction.decode (memory.readWord address) = instruction)
    (hlong : instruction ≠ .setIndexLong) :
    ofMemory memory address = { address, instruction, mnemonic := instruction.mnemonic } := by
  unfold ofMemory
  dsimp only
  split
  · exact absurd (hdecode.symm.trans ‹_›) hlong
  · rw [hdecode]

theorem text_ofMemory (memory : Memory) (address : Address) :
    (ofMemory memory address).text.toList =
      Hex.digits 4 address.toNat ++ ": ".toList ++
        ((Instruction.decode (memory.readWord address)).spelling
          (memory.readWord (address + 2))).map Glyph.char := by
  rw [text, String.toList_append, String.toList_append, Hex.fixed, String.toList_ofList]
  congr 1
  by_cases hlong : Instruction.decode (memory.readWord address) = .setIndexLong
  · simp [ofMemory, hlong, Instruction.spelling, Hex.fixed]
  · rw [Instruction.map_char_spelling _ hlong, ofMemory_eq rfl hlong]

theorem text_ofMemory_eq_iff (first second : Memory) (address address' : Address) :
    (ofMemory first address).text = (ofMemory second address').text ↔
      reading first (ofMemory first address) = reading second (ofMemory second address') := by
  have hspelling := Instruction.map_char_spelling_eq_iff
    (first.readWord (address + 2)) (second.readWord (address' + 2))
    (Instruction.isConsistent_decode (first.readWord address))
    (Instruction.isConsistent_decode (second.readWord address'))
  rw [← String.toList_inj, text_ofMemory, text_ofMemory]
  constructor
  · intro htext
    -- The addresses have one width, so the texts part at the same place.
    obtain ⟨hstart, hrest⟩ := List.append_inj htext (by simp)
    have haddress := Glyph.eq_of_hexDigits_eq (List.append_cancel_right hstart)
    obtain ⟨hrange, hoperand⟩ := hspelling.mp hrest
    exact Prod.ext haddress (Prod.ext hrange hoperand)
  · intro hreading
    obtain ⟨haddress, hshown⟩ := Prod.ext_iff.mp hreading
    have haddress : address = address' := haddress
    rw [hspelling.mpr (Prod.ext_iff.mp hshown), haddress]

theorem map_ofMemory_listFrom (memory : Memory) (stop bound address : Nat) :
    ((listFrom memory stop bound address).map Entry.address).map (ofMemory memory) =
      listFrom memory stop bound address := by
  induction bound generalizing address with
  | zero => rfl
  | succ bound ih =>
    unfold listFrom
    split
    · simp only [List.map_cons, ih]
      rfl
    · rfl

end Entry

namespace Memory

theorem read_write (memory : Memory) (address other : Address) (value : UInt8) :
    (memory.write address value).read other =
      if address = other then value else memory.read other := by
  have hother := other.toNat_lt
  show (memory.bytes.set address.toNat value address.toNat_lt)[other.toNat] =
    if address = other then value else memory.bytes[other.toNat]
  simp only [Vector.getElem_set, UInt16.toNat_inj]

theorem load_pair {memory loaded : Memory} {high low : UInt8}
    (h : memory.load [high, low] = .ok loaded) :
    loaded =
      { (memory.write programStart high).write (programStart + 1) low with imageLength := 2 } :=
  (Except.ok.inj h).symm

theorem readWord_load_pair {memory loaded : Memory} {high low : UInt8}
    (h : memory.load [high, low] = .ok loaded) :
    loaded.readWord programStart = high.toUInt16 <<< 8 ||| low.toUInt16 := by
  have hread (address : Address) : loaded.read address =
      ((memory.write programStart high).write (programStart + 1) low).read address := by
    rw [load_pair h]
    rfl
  have hnext : programStart + 1 ≠ programStart := by decide
  rw [readWord, hread, hread, read_write, read_write, read_write, if_neg hnext, if_pos rfl,
    if_pos rfl]

theorem listing_load_pair {memory loaded : Memory} {high low : UInt8} {instruction : Instruction}
    (h : memory.load [high, low] = .ok loaded)
    (hdecode : Instruction.decode (high.toUInt16 <<< 8 ||| low.toUInt16) = instruction)
    (hlong : instruction ≠ .setIndexLong) :
    loaded.listing = [⟨programStart, instruction, instruction.mnemonic⟩] := by
  have hlength : loaded.imageLength = 2 := by rw [load_pair h]
  have hsize (entry : Entry) : ¬ programStart.toNat + entry.size < programStart.toNat + 2 := by
    unfold Entry.size
    split <;> decide
  have hrest (entry : Entry) : Entry.listFrom loaded (programStart.toNat + 2) 1
      (programStart.toNat + entry.size) = [] := by
    rw [Entry.listFrom, if_neg (hsize entry)]
  rw [← readWord_load_pair h] at hdecode
  rw [listing, hlength, Entry.listFrom, if_pos (by decide)]
  exact List.cons_eq_cons.mpr ⟨Entry.ofMemory_eq hdecode hlong, hrest _⟩

theorem map_ofMemory_listing (memory : Memory) :
    (memory.listing.map Entry.address).map (Entry.ofMemory memory) = memory.listing :=
  Entry.map_ofMemory_listFrom _ _ _ _

/-- Two listings have the same text if and only if they show the same, line by line. -/
theorem listing_text_eq_iff (first second : Memory) :
    first.listing.map Entry.text = second.listing.map Entry.text ↔
      first.listing.map (Entry.reading first) = second.listing.map (Entry.reading second) := by
  rw [← map_ofMemory_listing first, ← map_ofMemory_listing second]
  simp only [← List.forall₂_eq_eq_eq, List.forall₂_map_left_iff, List.forall₂_map_right_iff,
    Entry.text_ofMemory_eq_iff]

theorem load_console {console loaded : Console} {image : List UInt8}
    (h : console.load image = .ok loaded) : blank.load image = .ok loaded.machine.memory := by
  unfold Console.load at h
  split at h
  · cases h
  · next memory hmemory =>
    rw [hmemory, ← Except.ok.inj h]
    rfl

/-- The text does not tell which of the two stores a program has. -/
theorem stores_read_alike :
    ∃ first second : Console,
      (Console.ofSeed 0).load [0x50, 0x32] = .ok first ∧
      (Console.ofSeed 0).load [0xF3, 0x55] = .ok second ∧
      first.machine.memory.listing.map Entry.text =
        second.machine.memory.listing.map Entry.text ∧
      first.machine.memory.listing.map Entry.instruction ≠
        second.machine.memory.listing.map Entry.instruction := by
  obtain ⟨first, hfirst⟩ : ∃ first, (Console.ofSeed 0).load [0x50, 0x32] = .ok first := ⟨_, rfl⟩
  obtain ⟨second, hsecond⟩ : ∃ second, (Console.ofSeed 0).load [0xF3, 0x55] = .ok second :=
    ⟨_, rfl⟩
  have hrange : first.machine.memory.listing = [⟨0x200, .storeRange 0 3, "LD  [I], V0-V3"⟩] :=
    listing_load_pair (load_console hfirst) rfl (by decide)
  have hthrough : second.machine.memory.listing = [⟨0x200, .storeThrough 3, "LD  [I], V0-V3"⟩] :=
    listing_load_pair (load_console hsecond) rfl (by decide)
  refine ⟨first, second, hfirst, hsecond, ?_, ?_⟩
  · rw [hrange, hthrough]
    rfl
  · rw [hrange, hthrough]
    decide

end Memory

end ChipEight
