import ChipEight.Proofs.Console.ListingText
import ChipEight.Proofs.Machine.Image

/-!
The listing of an image covers it without gaps and without overlaps. It begins where the image
begins, every entry begins where the one before it ends, and the last one reaches the end of the
image or at most three bytes beyond it, also where that is past the last address.
-/

namespace ChipEight

/-- The high byte comes first. -/
theorem Memory.toNat_readWord (memory : Memory) (address : Address) :
    (memory.readWord address).toNat =
      256 * (memory.read address).toNat + (memory.read (address + 1)).toNat := by
  have hhigh := (memory.read address).toNat_lt
  have hlow := (memory.read (address + 1)).toNat_lt
  have hplace : (8 : UInt16).toNat % 16 = 8 := rfl
  have hshifted : (memory.read address).toNat <<< 8 % 2 ^ 16 =
      2 ^ 8 * (memory.read address).toNat := by
    rw [Nat.shiftLeft_eq]
    omega
  rw [readWord, UInt16.toNat_or, UInt16.toNat_shiftLeft, UInt8.toNat_toUInt16,
    UInt8.toNat_toUInt16, hplace, hshifted, ← Nat.two_pow_add_eq_or_of_lt hlow]

namespace Entry

/-- The entry shows what the bytes at its address mean, and behind a long load the number in the
two bytes after them. The last address is followed by the first. -/
structure Shows (memory : Memory) (entry : Entry) : Prop where
  instruction : entry.instruction = Instruction.decode (UInt16.ofNat
    (256 * (memory.read entry.address).toNat + (memory.read (entry.address + 1)).toNat))
  mnemonic : entry.mnemonic =
    if entry.instruction = .setIndexLong then
      "LD  I, " ++ Hex.fixed 4 (256 * (memory.read (entry.address + 2)).toNat +
        (memory.read (entry.address + 3)).toNat)
    else entry.instruction.mnemonic

/-- The entries begin at `address`, come one after another as the memory has them, and end with
the first that reaches `stop`. -/
inductive Tiles (memory : Memory) (stop : Nat) : Nat → List Entry → Prop
  | nil {address : Nat} : stop ≤ address → Tiles memory stop address []
  | cons {address : Nat} {rest : List Entry} : address < stop →
      Tiles memory stop (address + (ofMemory memory (UInt16.ofNat address)).size) rest →
      Tiles memory stop address (ofMemory memory (UInt16.ofNat address) :: rest)

theorem size_eq (entry : Entry) : entry.size = 2 ∨ entry.size = 4 := by
  unfold size
  split
  · exact .inr rfl
  · exact .inl rfl

theorem shows_ofMemory (memory : Memory) (address : Address) :
    Shows memory (ofMemory memory address) := by
  constructor
  · have hword : UInt16.ofNat (256 * (memory.read address).toNat +
        (memory.read (address + 1)).toNat) = memory.readWord address := by
      rw [← memory.toNat_readWord address, UInt16.ofNat_toNat]
    exact congrArg Instruction.decode hword.symm
  · have hsecond : address + 2 + 1 = address + 3 := UInt16.add_assoc address 2 1
    have hword := memory.toNat_readWord (address + 2)
    rw [hsecond] at hword
    by_cases hlong : Instruction.decode (memory.readWord address) = .setIndexLong
    · simp [ofMemory, hlong, hword]
    · rw [ofMemory_eq rfl hlong, if_neg hlong]

/-- Every entry takes up bytes, so that as many entries as bytes are enough. -/
theorem tiles_listFrom (memory : Memory) {stop bound address : Nat} (h : stop ≤ address + bound) :
    Tiles memory stop address (listFrom memory stop bound address) := by
  induction bound generalizing address with
  | zero => exact .nil h
  | succ bound ih =>
    rw [listFrom]
    split
    · next hbefore =>
      have hsize := (ofMemory memory (UInt16.ofNat address)).size_eq
      exact .cons hbefore (ih (by omega))
    · next hreached => exact .nil (Nat.le_of_not_lt hreached)

/-- No address before the end of the address space is cut to fewer bits. -/
theorem toNat_address_ofMemory (memory : Memory) {stop address : Nat} (hstop : stop ≤ 65536)
    (hbefore : address < stop) :
    (ofMemory memory (UInt16.ofNat address)).address.toNat = address := by
  have haddress : (UInt16.ofNat address).toNat = address % 65536 := UInt16.toNat_ofNat'
  exact haddress.trans (Nat.mod_eq_of_lt (by omega))

namespace Tiles

variable {memory : Memory} {stop address : Nat} {entries : List Entry}

theorem unique {others : List Entry} (h : Tiles memory stop address entries)
    (hothers : Tiles memory stop address others) : entries = others := by
  induction h generalizing others with
  | nil hreached =>
    cases hothers with
    | nil _ => rfl
    | cons hbefore _ => omega
  | cons hbefore _ ih =>
    cases hothers with
    | nil hreached => omega
    | cons _ hrest => rw [ih hrest]

theorem head? (h : Tiles memory stop address entries) :
    entries.head?.map Entry.address =
      if address < stop then some (UInt16.ofNat address) else none := by
  cases h with
  | nil hreached => exact (if_neg (Nat.not_lt.mpr hreached)).symm
  | cons hbefore _ => exact (if_pos hbefore).symm

theorem shows (h : Tiles memory stop address entries) {entry : Entry} (hentry : entry ∈ entries) :
    Shows memory entry := by
  induction h with
  | nil _ => cases hentry
  | cons _ _ ih =>
    rcases List.mem_cons.mp hentry with rfl | hrest
    · exact shows_ofMemory memory _
    · exact ih hrest

section WithinMemory

variable (h : Tiles memory stop address entries) (hstop : stop ≤ 65536)
include h hstop

theorem inside {entry : Entry} (hentry : entry ∈ entries) :
    address ≤ entry.address.toNat ∧ entry.address.toNat < stop := by
  induction h with
  | nil _ => cases hentry
  | cons hbefore _ ih =>
    rcases List.mem_cons.mp hentry with rfl | hrest
    · rw [toNat_address_ofMemory memory hstop hbefore]
      exact ⟨Nat.le_refl _, hbefore⟩
    · obtain ⟨hstart, hlast⟩ := ih hrest
      exact ⟨by omega, hlast⟩

theorem isChain :
    entries.IsChain fun entry next => next.address.toNat = entry.address.toNat + entry.size := by
  induction h with
  | nil _ => exact .nil
  | cons hbefore hrest ih =>
    cases hrest with
    | nil _ => exact .singleton _
    | cons hnext hrest =>
      refine .cons_cons ?_ ih
      rw [toNat_address_ofMemory memory hstop hbefore, toNat_address_ofMemory memory hstop hnext]

theorem pairwise :
    entries.Pairwise fun entry later => entry.address.toNat < later.address.toNat := by
  induction h with
  | nil _ => exact .nil
  | @cons address _ hbefore hrest ih =>
    refine .cons ?_ ih
    intro later hlater
    obtain ⟨hstart, -⟩ := hrest.inside hstop hlater
    have hsize := (ofMemory memory (UInt16.ofNat address)).size_eq
    rw [toNat_address_ofMemory memory hstop hbefore]
    omega

theorem getLast? {entry : Entry} (hlast : entry ∈ entries.getLast?) :
    stop ≤ entry.address.toNat + entry.size := by
  induction h with
  | nil _ => cases hlast
  | cons hbefore hrest ih =>
    cases hrest with
    | nil hreached =>
      rw [List.getLast?_singleton, Option.mem_some] at hlast
      subst hlast
      rwa [toNat_address_ofMemory memory hstop hbefore]
    | cons hnext hrest => exact ih hlast

end WithinMemory

end Tiles

end Entry

namespace Memory

/-- The entries are those of the loaded image, from its first byte to its last. -/
structure Covers (memory : Memory) (entries : List Entry) : Prop where
  first : entries.head?.map Entry.address = if 0 < memory.imageLength then some 0x200 else none
  next : entries.IsChain fun entry next =>
    next.address.toNat = entry.address.toNat + entry.size
  increasing : entries.Pairwise fun entry later => entry.address.toNat < later.address.toNat
  inside : ∀ entry ∈ entries,
    0x200 ≤ entry.address.toNat ∧ entry.address.toNat < 0x200 + memory.imageLength
  last : ∀ entry ∈ entries.getLast?,
    0x200 + memory.imageLength ≤ entry.address.toNat + entry.size ∧
      entry.address.toNat + entry.size ≤ 0x200 + memory.imageLength + 3
  shows : ∀ entry ∈ entries, entry.Shows memory

theorem covers_of_tiles {memory : Memory} {entries : List Entry}
    (hfits : memory.imageLength ≤ maxImageLength)
    (h : Entry.Tiles memory (0x200 + memory.imageLength) 0x200 entries) :
    memory.Covers entries := by
  have hstop : 0x200 + memory.imageLength ≤ 65536 := Nat.add_le_of_le_sub' (by decide) hfits
  have hinside : ∀ entry ∈ entries,
      0x200 ≤ entry.address.toNat ∧ entry.address.toNat < 0x200 + memory.imageLength :=
    fun _ => h.inside hstop
  refine ⟨?_, h.isChain hstop, h.pairwise hstop, hinside, ?_, fun _ => h.shows⟩
  · simpa using h.head?
  · intro entry hlast
    obtain ⟨-, hbefore⟩ := hinside entry (List.mem_of_mem_getLast? hlast)
    have hsize := entry.size_eq
    exact ⟨h.getLast? hstop hlast, by omega⟩

/-- The listing of an image of any length that fits covers it, whatever the memory holds there now,
and room for more entries does not make it longer. -/
theorem listing_covers_image {memory : Memory} (hfits : memory.imageLength ≤ maxImageLength) :
    memory.Covers memory.listing ∧
      ∀ more, Entry.listFrom memory (0x200 + memory.imageLength) (memory.imageLength + more) 0x200 =
        memory.listing := by
  have htiles (more : Nat) : Entry.Tiles memory (0x200 + memory.imageLength) 0x200
      (Entry.listFrom memory (0x200 + memory.imageLength) (memory.imageLength + more) 0x200) :=
    Entry.tiles_listFrom memory (by omega)
  have hlisting : Entry.Tiles memory (0x200 + memory.imageLength) 0x200 memory.listing := htiles 0
  exact ⟨covers_of_tiles hfits hlisting, fun more => (htiles more).unique hlisting⟩

/-- An image of three bytes, the last of which begins a long load. -/
def cutOff : Memory :=
  holding [0x60, 0x05, 0xF0] (by decide)

/-- The long load ends three bytes behind the image. -/
theorem listing_covers_image_cutOff :
    cutOff.imageLength = 3 ∧ cutOff.Covers cutOff.listing ∧
      cutOff.listing.map (fun entry => (entry.address, entry.instruction, entry.size)) =
        [(0x200, .setByte 0 5, 2), (0x202, .setIndexLong, 4)] ∧
      Entry.listFrom cutOff 0x203 8 0x200 = cutOff.listing := by
  have hfits : cutOff.imageLength ≤ maxImageLength := by decide
  obtain ⟨hcovers, hends⟩ := listing_covers_image hfits
  exact ⟨rfl, hcovers, by decide +kernel, hends 5⟩

end Memory

end ChipEight
