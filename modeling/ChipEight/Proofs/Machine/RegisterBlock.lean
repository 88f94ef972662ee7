import ChipEight.Proofs.Machine.Footprint

/-!
Registers that are stored at the index and loaded again. A load gives back what a store put
there, from whatever registers in between, also where the bytes wrap around the end of the address
space. Loading a range the other way around reverses it.
-/

namespace ChipEight

namespace Memory

theorem exists_of_mem_consecutive {address other : Address} {count : Nat}
    (h : other ∈ consecutive address count) : ∃ k < count, other = address + UInt16.ofNat k := by
  induction count generalizing address with
  | zero => cases h
  | succ count ih =>
    rcases List.mem_cons.mp h with hfirst | hrest
    · exact ⟨0, by omega, by rw [hfirst]; exact (UInt16.add_zero address).symm⟩
    · obtain ⟨k, hk, hother⟩ := ih hrest
      refine ⟨k + 1, by omega, ?_⟩
      rw [hother, UInt16.ofNat_add, UInt16.add_assoc, UInt16.add_comm (UInt16.ofNat k)]
      rfl

/-- Fewer addresses than there are do not come around to the one before them. -/
theorem not_mem_consecutive_succ (address : Address) {count : Nat} (h : count < 65536) :
    address ∉ consecutive (address + 1) count := by
  intro hmem
  obtain ⟨k, hk, hother⟩ := exists_of_mem_consecutive hmem
  have hvalue := congrArg UInt16.toNat hother
  rw [UInt16.toNat_add, UInt16.toNat_add, UInt16.toNat_one, UInt16.toNat_ofNat'] at hvalue
  have haddress := address.toNat_lt
  omega

/-- Bytes are read as they were written, also across the end of the address space. -/
theorem readAll_writeAll (memory : Memory) (address : Address) {values : List UInt8}
    (h : values.length ≤ 65536) :
    (memory.writeAll address values).readAll address values.length = values := by
  induction values generalizing memory address with
  | nil => rfl
  | cons value values ih =>
    rw [List.length_cons] at h
    -- The bytes after the first one do not come around to it.
    have hkept := (memory.write address value).read_writeAll_of_not_mem
      (not_mem_consecutive_succ address (by omega : values.length < 65536))
    rw [writeAll, List.length_cons, readAll, ih _ _ (by omega), hkept, read_write, if_pos rfl]

end Memory

namespace Processor

theorem get_setAll_map (cpu : Processor) {registers : List Register} {r : Register}
    (h : r ∈ registers) (value : Register → UInt8) :
    (cpu.setAll registers (registers.map value)).get r = value r := by
  induction registers generalizing cpu with
  | nil => cases h
  | cons x registers ih =>
    rw [List.map_cons, setAll]
    by_cases hrest : r ∈ registers
    · exact ih (cpu.set x (value x)) hrest
    · have hfirst : r = x := (List.mem_cons.mp h).resolve_right hrest
      rw [get_setAll_of_not_mem _ hrest, get_set, if_pos hfirst, hfirst]

/-- The register of the range as far from `y` as `r` is from `x`. -/
def mirror (x y r : Register) : Register :=
  x + y - r

theorem val_mirror {x y r : Register} (h : Between x y r) :
    (mirror x y r).val + r.val = x.val + y.val := by
  unfold mirror
  unfold Between at h
  simp only [Fin.le_def, Fin.sub_def, Fin.add_def] at *
  omega

theorem between_comm {x y r : Register} : Between x y r ↔ Between y x r :=
  or_comm

theorem span_eq_map_mirror : ∀ x y : Register, span x y = (span y x).map (mirror x y) := by
  decide +kernel

theorem length_span_le (x y : Register) : (span x y).length ≤ 65536 := by
  rw [length_span]
  omega

/-- The index after a transfer of the registers up to `x`. -/
theorem index_advanceIndex (cpu : Processor) (x : Register) :
    (cpu.advanceIndex x).index =
      if cpu.dialect.keepIndex then cpu.index
      else if cpu.dialect.shortAdvance then cpu.index + UInt16.ofNat x.val
      else cpu.index + UInt16.ofNat (x.val + 1) := by
  have hwidth : ∀ r : Register, (UInt8.ofNat r.val).toUInt16 = UInt16.ofNat r.val := by
    decide
  rw [advanceIndex, Dialect.advanceIndex, hwidth, UInt16.ofNat_add]
  rfl

end Processor

namespace Machine

/-- A store of `count` bytes from the index on changed nothing but them and maybe the index. -/
structure Stored (machine stored : Machine) (count : Nat) : Prop where
  registers : stored.cpu.registers = machine.cpu.registers
  outside : ∀ address, address ∉ Memory.consecutive machine.cpu.index count →
    stored.memory.read address = machine.memory.read address
  imageLength : stored.memory.imageLength = machine.memory.imageLength

/-- A load in the machine `later` gave the registers of a range the values that their origins had
in `machine`. -/
structure Restored (machine later loaded : Machine) (range : Register → Prop)
    (origin : Register → Register) : Prop where
  inside : ∀ r, range r → loaded.cpu.get r = machine.cpu.get (origin r)
  outside : ∀ r, ¬ range r → loaded.cpu.get r = later.cpu.get r
  memory : loaded.memory = later.memory

theorem stored_execute (machine : Machine) (instruction : Instruction)
    (h : instruction.storedCount ≠ 0) :
    Stored machine (machine.execute instruction).state instruction.storedCount := by
  constructor
  · cases instruction with
    | storeRange _ _ | storeThrough _ | storeDecimal _ => rfl
    | _ => exact absurd rfl h
  · intro address hmem
    exact machine.read_execute hmem
  · exact machine.imageLength_execute instruction

variable {machine later : Machine}

/-- Each loaded register gets what its origin among the stored registers had. -/
theorem cpu_load {written loaded : List Register} {origin : Register → Register}
    (horigin : written = loaded.map origin) (hlength : loaded.length ≤ 65536)
    (hmemory : later.memory = (machine.store written).memory)
    (hindex : later.cpu.index = machine.cpu.index) :
    (later.load loaded).cpu =
      later.cpu.setAll loaded (loaded.map fun r => machine.cpu.get (origin r)) := by
  have hvalues : written.map machine.cpu.get = loaded.map fun r => machine.cpu.get (origin r) := by
    rw [horigin, List.map_map]
    rfl
  have hcount : (written.map machine.cpu.get).length = loaded.length := by
    rw [hvalues, List.length_map]
  have hread := machine.memory.readAll_writeAll machine.cpu.index (hcount ▸ hlength)
  rw [hcount, hvalues] at hread
  rw [load, onCpu, hmemory, hindex, store, storeAtIndex, hvalues, hread]

theorem restored_load {written loaded : List Register} {origin : Register → Register}
    {range : Register → Prop} (horigin : written = loaded.map origin)
    (hlength : loaded.length ≤ 65536) (hrange : ∀ r, r ∈ loaded ↔ range r)
    (hmemory : later.memory = (machine.store written).memory)
    (hindex : later.cpu.index = machine.cpu.index) :
    Restored machine later (later.load loaded) range origin := by
  have hcpu := cpu_load horigin hlength hmemory hindex
  constructor
  · intro r hr
    rw [hcpu, Processor.get_setAll_map _ ((hrange r).mpr hr)]
  · intro r hr
    rw [hcpu, Processor.get_setAll_of_not_mem _ (mt (hrange r).mp hr)]
  · rfl

section Ranges

variable {x y : Register}

theorem restored_loadRange (hmemory : later.memory = (machine.store (Processor.span x y)).memory)
    (hindex : later.cpu.index = machine.cpu.index) :
    Restored machine later (later.load (Processor.span x y)) (Processor.Between x y) id := by
  apply restored_load (List.map_id _).symm (Processor.length_span_le x y) _ hmemory hindex
  exact Processor.mem_span_iff x y

/-- The range is stored from `x` to `y` and loaded from `y` to `x`. -/
theorem restored_loadRange_reversed
    (hmemory : later.memory = (machine.store (Processor.span x y)).memory)
    (hindex : later.cpu.index = machine.cpu.index) :
    Restored machine later (later.load (Processor.span y x)) (Processor.Between x y)
      (Processor.mirror x y) := by
  apply restored_load (Processor.span_eq_map_mirror x y) (Processor.length_span_le y x) _
    hmemory hindex
  intro r
  rw [Processor.mem_span_iff, Processor.between_comm]

theorem restored_loadThrough
    (hmemory : later.memory = (machine.store (Processor.span 0 x)).memory)
    (hindex : later.cpu.index = machine.cpu.index) :
    Restored machine later ((later.load (Processor.span 0 x)).onCpu (·.advanceIndex x)) (· ≤ x)
      id := by
  have hload : Restored machine later (later.load (Processor.span 0 x)) (· ≤ x) id := by
    apply restored_load (List.map_id _).symm (Processor.length_span_le 0 x) _ hmemory hindex
    exact Processor.mem_span_zero_iff x
  exact ⟨hload.inside, hload.outside, hload.memory⟩

end Ranges

/-- A load does not move the index by itself. -/
theorem index_load (machine : Machine) (registers : List Register) :
    (machine.load registers).cpu.index = machine.cpu.index := by
  rw [load, onCpu, Processor.setAll_registers]

theorem dialect_load (machine : Machine) (registers : List Register) :
    (machine.load registers).cpu.dialect = machine.cpu.dialect := by
  rw [load, onCpu, Processor.setAll_registers]

/-- Loading registers gives back what storing them put into memory, whatever the other registers
and parts of the machine have become in between. The registers up to one come back with the index
moved as the store moved it, which is by the dialect. A range comes back with the index in its
place, and reversed when it is loaded the other way around. A store changes no other byte than
those that it writes. -/
theorem loads_invert_stores (machine : Machine) (x y : Register) :
    (∃ stored, machine.execute (.storeThrough x) = .done stored ∧
      Stored machine stored (x.val + 1) ∧
      (stored.cpu.index =
        if machine.cpu.dialect.keepIndex then machine.cpu.index
        else if machine.cpu.dialect.shortAdvance then machine.cpu.index + UInt16.ofNat x.val
        else machine.cpu.index + UInt16.ofNat (x.val + 1)) ∧
      ∀ later : Machine, later.memory = stored.memory → later.cpu.index = machine.cpu.index →
        later.cpu.dialect = machine.cpu.dialect →
        ∃ loaded, later.execute (.loadThrough x) = .done loaded ∧
          Restored machine later loaded (· ≤ x) id ∧ loaded.cpu.index = stored.cpu.index) ∧
    ∃ stored, machine.execute (.storeRange x y) = .done stored ∧
      Stored machine stored (((x.val : Int) - y.val).natAbs + 1) ∧
      stored.cpu.index = machine.cpu.index ∧
      ∀ later : Machine, later.memory = stored.memory → later.cpu.index = machine.cpu.index →
        (∃ loaded, later.execute (.loadRange x y) = .done loaded ∧
          Restored machine later loaded (Processor.Between x y) id ∧
          loaded.cpu.index = machine.cpu.index) ∧
        ∃ loaded, later.execute (.loadRange y x) = .done loaded ∧
          Restored machine later loaded (Processor.Between x y) (Processor.mirror x y) ∧
          loaded.cpu.index = machine.cpu.index := by
  constructor
  · have hstored := machine.stored_execute (.storeThrough x) (Nat.succ_ne_zero _)
    refine ⟨_, rfl, hstored, Processor.index_advanceIndex _ x, ?_⟩
    intro later hmemory hindex hdialect
    refine ⟨_, rfl, restored_loadThrough hmemory hindex, ?_⟩
    show Dialect.advanceIndex _ _ _ = Dialect.advanceIndex _ _ _
    rw [dialect_load, index_load, hdialect, hindex]
    rfl
  · have hstored := machine.stored_execute (.storeRange x y) (Nat.succ_ne_zero _)
    refine ⟨_, rfl, hstored, rfl, ?_⟩
    intro later hmemory hindex
    constructor
    · exact ⟨_, rfl, restored_loadRange hmemory hindex, (later.index_load _).trans hindex⟩
    · exact ⟨_, rfl, restored_loadRange_reversed hmemory hindex,
        (later.index_load _).trans hindex⟩

/-- Four registers with values of their own, and an index from which they reach past the last
address. Stores move it past the registers. -/
def filled : Machine :=
  (Console.ofImage []).machine.onCpu fun cpu =>
    { (((cpu.set 1 11).set 2 12).set 3 13).set 4 14 with index := 0xFFFE, dialect := .modern }

/-- All registers cleared, and the index where it was before the store. -/
def refilling (stored : Machine) : Machine :=
  stored.onCpu ({ · with registers := Vector.replicate 16 0, index := 0xFFFE })

/-- Registers 0 to 3 come back from the last two addresses and the first two, and register 4 does
not. The range from 3 to 1 comes back reversed. -/
theorem loads_invert_stores_wrapping :
    (∃ stored loaded, filled.execute (.storeThrough 3) = .done stored ∧
      stored.cpu.index = 2 ∧ (refilling stored).execute (.loadThrough 3) = .done loaded ∧
      loaded.cpu.get 2 = 12 ∧ loaded.cpu.get 3 = 13 ∧ loaded.cpu.get 4 = 0 ∧
      loaded.cpu.index = 2) ∧
    ∃ stored loaded reversed, filled.execute (.storeRange 3 1) = .done stored ∧
      (refilling stored).execute (.loadRange 3 1) = .done loaded ∧ loaded.cpu.get 1 = 11 ∧
      (refilling stored).execute (.loadRange 1 3) = .done reversed ∧ reversed.cpu.get 1 = 13 ∧
      reversed.cpu.index = 0xFFFE := by
  obtain ⟨⟨stored, hstore, hstored, hindex, hload⟩, ranged, hrange, -, -, hranges⟩ :=
    loads_invert_stores filled 3 1
  have hdialect : stored.cpu.dialect = filled.cpu.dialect := by
    have hkept := filled.dialect_execute (.storeThrough 3)
    rwa [hstore] at hkept
  have hmoved : stored.cpu.index = 2 := hindex.trans (by decide +kernel)
  constructor
  · obtain ⟨loaded, hloaded, hrestored, hreached⟩ := hload (refilling stored) rfl rfl hdialect
    refine ⟨stored, loaded, hstore, hmoved, hloaded, ?_, ?_, ?_, hreached.trans hmoved⟩
    · exact hrestored.inside 2 (by decide)
    · exact hrestored.inside 3 (by decide)
    · exact hrestored.outside 4 (by decide)
  · obtain ⟨⟨loaded, hloaded, hrestored, -⟩, reversed, hreversed, hmirrored, hreached⟩ :=
      hranges (refilling ranged) rfl rfl
    refine ⟨ranged, loaded, reversed, hrange, hloaded, ?_, hreversed, ?_, hreached⟩
    · exact hrestored.inside 1 (by decide)
    · exact hmirrored.inside 1 (by decide)

end Machine

end ChipEight
