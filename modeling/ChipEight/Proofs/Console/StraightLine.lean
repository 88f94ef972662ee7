import ChipEight.Proofs.Console.Residue
import ChipEight.Proofs.Machine.Counter

/-!
Programs without instructions of control, executed from their first instruction on. As long as
the counter stays in the image and nothing is written there, what is executed is the listing,
line by line, whatever else the host calls in between.
-/

namespace ChipEight

/-- All that decides which instruction comes next. -/
def Machine.code (machine : Machine) : Memory × Address :=
  (machine.memory, machine.cpu.counter)

namespace Console

/-- The machines come one after another: the first has the memory and the counter of `start`,
every other has what the step of the one before leaves, and `stop` is what the last leaves. -/
def Leads : Memory × Address → List Machine → Memory × Address → Prop
  | start, [], stop => start = stop
  | start, machine :: rest, stop => machine.code = start ∧ Leads machine.step.state.code rest stop

theorem Leads.append {start middle stop : Memory × Address} {machines others : List Machine}
    (hfirst : Leads start machines middle) (hsecond : Leads middle others stop) :
    Leads start (machines ++ others) stop := by
  induction machines generalizing start with
  | nil =>
    cases hfirst
    exact hsecond
  | cons machine machines ih => exact ⟨hfirst.1, ih hfirst.2⟩

theorem Leads.take {start stop : Memory × Address} {machines : List Machine}
    (h : Leads start machines stop) (count : Nat) :
    ∃ middle, Leads start (machines.take count) middle := by
  induction machines generalizing start count with
  | nil =>
    rw [List.take_nil]
    exact ⟨stop, h⟩
  | cons machine machines ih =>
    cases count with
    | zero => exact ⟨start, rfl⟩
    | succ count =>
      obtain ⟨middle, hmiddle⟩ := ih h.2 count
      exact ⟨middle, h.1, hmiddle⟩

theorem leads_step (point : Console) :
    Leads point.machine.code (executed [point]) point.step.state.machine.code := by
  rw [step_eq]
  cases hstalled : point.isStalled with
  | true => simp [executed, hstalled, Leads, Outcome.state]
  | false => simp [executed, hstalled, Leads, Outcome.state_map]

theorem leads_runCycles (count : Nat) (console : Console) :
    Leads console.machine.code (executed (cyclePoints count console))
      (runCycles count console).state.machine.code := by
  induction count generalizing console with
  | zero => rfl
  | succ count ih =>
    have hstep : Leads console.machine.code (executed [console.spendCycle])
        console.spendCycle.step.state.machine.code := leads_step console.spendCycle
    rw [cyclePoints, runCycles, ← List.singleton_append, executed_append]
    cases hresult : console.spendCycle.step with
    | done next =>
      rw [hresult] at hstep
      exact hstep.append (ih next)
    | fault reason left =>
      rw [hresult] at hstep
      exact hstep.append rfl

theorem code_runTicks (count : Nat) (console : Console) :
    (runTicks count console).machine.code = console.machine.code := by
  induction count generalizing console with
  | zero => rfl
  | succ count ih => exact ih console.tick

theorem leads_runFrame (console : Console) (nanoseconds : Nat) :
    Leads console.machine.code (executed (console.callPoints (.frame nanoseconds)))
      (console.runFrame nanoseconds).console.machine.code := by
  have hcycles : Leads console.machine.code (executed (console.callPoints (.frame nanoseconds)))
      (console.frameCycles nanoseconds).state.machine.code :=
    leads_runCycles (console.cyclesDue nanoseconds) (console.earnCycles (Clock.seconds nanoseconds))
  rw [runFrame_eq]
  cases hresult : console.frameCycles nanoseconds with
  | done next =>
    have hfinish : (next.finishFrame (Clock.seconds nanoseconds)).console.machine.code =
        next.machine.code := code_runTicks _ _
    rw [hresult] at hcycles
    simp only [hfinish]
    exact hcycles
  | fault reason left => rwa [hresult] at hcycles

/-- Between its steps a history leaves memory and counter alone, unless it loads a program. -/
theorem leads_perform {call : Call} (hload : call.loads = false) (console : Console) :
    Leads console.machine.code (executed (console.callPoints call))
      (console.perform call).machine.code := by
  cases call with
  | step => exact leads_step console
  | frame nanoseconds => exact console.leads_runFrame nanoseconds
  | load image =>
    have hlong : Memory.maxImageLength < image.length := by simpa [Call.loads] using hload
    simp only [perform, load_eq_error hlong]
    rfl
  | _ => rfl

theorem leads_performAll {calls : List Call} (hloads : ∀ call ∈ calls, call.loads = false)
    (console : Console) :
    Leads console.machine.code (executions calls console)
      (console.performAll calls).machine.code := by
  induction calls generalizing console with
  | nil => rfl
  | cons call calls ih =>
    have hcall := leads_perform (hloads call List.mem_cons_self) console
    have hcalls := ih (fun other hother => hloads other (List.mem_cons_of_mem _ hother))
      (console.perform call)
    rw [executions, stepPoints, executed_append, performAll_cons]
    exact hcall.append hcalls

end Console

/-- The address is one of the image, which has the given length. -/
def Memory.InImage (length : Nat) (address : Address) : Prop :=
  programStart.toNat ≤ address.toNat ∧ address.toNat < programStart.toNat + length

instance (length : Nat) (address : Address) : Decidable (Memory.InImage length address) :=
  inferInstanceAs (Decidable (_ ∧ _))

namespace Machine

/-- The counter is in the image, and the next instruction writes neither into the image nor to
the byte after it. -/
def StaysInside (length : Nat) (machine : Machine) : Prop :=
  Memory.InImage length machine.cpu.counter ∧
    ∀ address ∈ machine.written, ¬ Memory.InImage (length + 1) address

-- The instance for the writes is given, lest all addresses be gone through.
instance (length : Nat) (machine : Machine) : Decidable (machine.StaysInside length) :=
  @instDecidableAnd _ _ inferInstance (List.decidableBAll _ machine.written)

end Machine

/-- The machine is at an entry of the listing of an image: there its counter is, and the image
and the byte after it are still as they were. -/
structure AtEntry (memory : Memory) (length address : Nat) (code : Memory × Address) : Prop where
  counter : code.2 = UInt16.ofNat address
  even : 2 ∣ address
  start_le : Memory.programStart.toNat ≤ address
  /-- An entry is four bytes long at most. -/
  le_stop : address ≤ 65538
  read : ∀ other, Memory.InImage (length + 1) other → code.1.read other = memory.read other

namespace AtEntry

variable {memory : Memory} {length address : Nat} {machine : Machine}

theorem toNat_counter (hat : AtEntry memory length address machine.code)
    (hinside : Memory.InImage length machine.cpu.counter) :
    machine.cpu.counter.toNat = address := by
  have hcounter : machine.cpu.counter = UInt16.ofNat address := hat.counter
  have hstart : Memory.programStart.toNat = 512 := rfl
  have hbound := hat.le_stop
  have hfirst := hinside.1
  rw [hcounter, UInt16.toNat_ofNat'] at hfirst ⊢
  omega

/-- An instruction in the image has both bytes of its word in the image or right after it. -/
theorem readWord (hat : AtEntry memory length address machine.code)
    (hinside : Memory.InImage length machine.cpu.counter) :
    machine.memory.readWord machine.cpu.counter = memory.readWord (UInt16.ofNat address) := by
  have hcounter : machine.cpu.counter = UInt16.ofNat address := hat.counter
  have haddress := hat.toNat_counter hinside
  have heven := hat.even
  have hlt := machine.cpu.counter.toNat_lt
  have hsecond : (machine.cpu.counter + 1).toNat = address + 1 := by
    rw [UInt16.toNat_add, haddress, UInt16.toNat_one]
    exact Nat.mod_eq_of_lt (by omega)
  obtain ⟨hfirst, hlast⟩ := hinside
  have hhigh : machine.memory.read machine.cpu.counter = memory.read machine.cpu.counter :=
    hat.read _ ⟨hfirst, by omega⟩
  have hlow : machine.memory.read (machine.cpu.counter + 1) =
      memory.read (machine.cpu.counter + 1) := hat.read _ ⟨by omega, by omega⟩
  rw [Memory.readWord, hhigh, hlow, hcounter]
  rfl

/-- A step leads from one entry to the next. -/
theorem step (hat : AtEntry memory length address machine.code)
    (hlength : length ≤ Memory.maxImageLength) (hstays : machine.StaysInside length)
    (hplain : (Entry.ofMemory memory (UInt16.ofNat address)).instruction.isControl = false) :
    AtEntry memory length (address + (Entry.ofMemory memory (UInt16.ofNat address)).size)
      machine.step.state.code := by
  obtain ⟨hinside, hwritten⟩ := hstays
  have hcounter : machine.cpu.counter = UInt16.ofNat address := hat.counter
  have hword := hat.readWord hinside
  have hnext : machine.next = (Entry.ofMemory memory (UInt16.ofNat address)).instruction :=
    congrArg Instruction.decode hword
  have hsizeAt : machine.sizeAt machine.cpu.counter =
      UInt16.ofNat (Entry.ofMemory memory (UInt16.ofNat address)).size := by
    rw [Machine.sizeAt_eq, hword, Entry.size_ofMemory]
  have hstop : address < Memory.programStart.toNat + length := by
    rw [← hat.toNat_counter hinside]
    exact hinside.2
  have hsize : (Entry.ofMemory memory (UInt16.ofNat address)).size = 2 ∨
      (Entry.ofMemory memory (UInt16.ofNat address)).size = 4 := by
    unfold Entry.size
    split <;> simp
  rw [← hnext] at hplain
  refine ⟨?_, ?_, ?_, ?_, ?_⟩
  · calc machine.step.state.cpu.counter
        = machine.cpu.counter + machine.sizeAt machine.cpu.counter :=
          Machine.counter_step_of_plain hplain
      _ = _ := by rw [hsizeAt, hcounter, ← UInt16.ofNat_add]
  · have heven := hat.even
    omega
  · have hstart := hat.start_le
    omega
  · have heven := hat.even
    have hstart : Memory.programStart.toNat + length ≤ 65536 :=
      Nat.add_le_of_le_sub' (by decide) hlength
    omega
  · intro other hother
    rw [← hat.read other hother]
    exact Machine.read_step fun hmem => hwritten other hmem hother

end AtEntry

namespace Entry

/-- As far as the machines stay inside, their counters are at one entry after another. -/
theorem isPrefix_listFrom {memory : Memory} {length : Nat}
    (hlength : length ≤ Memory.maxImageLength) {machines : List Machine}
    {start stop : Memory × Address} {bound address : Nat}
    (hleads : Console.Leads start machines stop) (hat : AtEntry memory length address start)
    (hbound : Memory.programStart.toNat + length ≤ address + bound)
    (hplain : ∀ entry ∈ listFrom memory (Memory.programStart.toNat + length) bound address,
      entry.instruction.isControl = false)
    (hstays : ∀ machine ∈ machines, machine.StaysInside length) :
    machines.map (·.cpu.counter) <+:
      (listFrom memory (Memory.programStart.toNat + length) bound address).map Entry.address := by
  induction machines generalizing start bound address with
  | nil => exact List.nil_prefix
  | cons machine machines ih =>
    obtain ⟨rfl, hrest⟩ := hleads
    have hstay := hstays machine List.mem_cons_self
    have haddress : address < Memory.programStart.toNat + length := by
      rw [← hat.toNat_counter hstay.1]
      exact hstay.1.2
    obtain ⟨bound, rfl⟩ : ∃ smaller, bound = smaller + 1 := ⟨bound - 1, by omega⟩
    rw [listFrom, if_pos haddress] at hplain ⊢
    have hnext := hat.step hlength hstay (hplain _ List.mem_cons_self)
    have hcounter : machine.cpu.counter = UInt16.ofNat address := hat.counter
    simp only [List.map_cons, hcounter]
    refine List.cons_prefix_cons.mpr ⟨rfl, ?_⟩
    refine ih hrest hnext ?_ ?_ ?_
    · have hsize : 0 < (ofMemory memory (UInt16.ofNat address)).size := by
        unfold size
        split <;> decide
      omega
    · intro entry hentry
      exact hplain entry (List.mem_cons_of_mem _ hentry)
    · intro other hother
      exact hstays other (List.mem_cons_of_mem _ hother)

end Entry

namespace Console

/-- A step that succeeds moves the counter past the instruction that the listing shows there,
unless that is one of control. So a program whose listing has none of these is executed as it is
listed, for as long as the counter stays in the image and nothing is written there. -/
theorem counter_follows_listing :
    (∀ machine after : Machine, machine.step = .done after →
      machine.destination? = some after.cpu.counter) ∧
    ∀ (console loaded : Console) (image : List UInt8) (calls : List Call) (count : Nat),
      console.load image = .ok loaded →
      (∀ entry ∈ loaded.machine.memory.listing, entry.instruction.isControl = false) →
      (∀ call ∈ calls, call.loads = false) →
      (∀ machine ∈ (executions calls loaded).take count, machine.StaysInside image.length) →
      ((executions calls loaded).take count).map (·.cpu.counter) <+:
        loaded.machine.memory.listing.map Entry.address := by
  refine ⟨fun machine after => Machine.destination?_of_step, ?_⟩
  intro console loaded image calls count hload hplain hcalls hstays
  obtain ⟨hfits, rfl⟩ := eq_holding_of_load hload
  obtain ⟨middle, hleads⟩ := (leads_performAll hcalls (holding console image hfits)).take count
  have hat : AtEntry (Memory.holding image hfits) image.length Memory.programStart.toNat
      (Memory.holding image hfits, Memory.programStart) :=
    { counter := rfl
      even := by decide
      start_le := Nat.le_refl _
      le_stop := by decide
      read := fun _ _ => rfl }
  exact Entry.isPrefix_listFrom hfits hleads hat (Nat.le_refl _) hplain hstays

/-- A long load, a byte into a register, and that register to an address far behind the image. -/
def longLoadImage : List UInt8 :=
  [0xF0, 0x00, 0x12, 0x34, 0x60, 0x05, 0xF0, 0x55]

def longLoaded : Console :=
  holding (ofSeed 0) longLoadImage (by decide)

/-- The listing has an entry of four bytes and two of two bytes, and is executed like that. -/
theorem counter_follows_listing_longLoaded :
    (∃ after, longLoaded.machine.step = .done after ∧
      longLoaded.machine.destination? = some after.cpu.counter) ∧
    (ofSeed 0).load longLoadImage = .ok longLoaded ∧
    (∀ entry ∈ longLoaded.machine.memory.listing, entry.instruction.isControl = false) ∧
    (∀ machine ∈ (executions [.step, .step, .step] longLoaded).take 3,
      machine.StaysInside longLoadImage.length) ∧
    [0x200, 0x204, 0x206] <+: longLoaded.machine.memory.listing.map Entry.address := by
  obtain ⟨hlaw, hfollows⟩ := counter_follows_listing
  have hload : (ofSeed 0).load longLoadImage = .ok longLoaded := load_eq_holding (ofSeed 0) _
  have hcalls : ∀ call ∈ [Call.step, .step, .step], call.loads = false := by simp [Call.loads]
  have hfine : longLoaded.machine.step.fault? = none := by decide +kernel
  have hplain : ∀ entry ∈ longLoaded.machine.memory.listing,
      entry.instruction.isControl = false := by decide +kernel
  have hstays : ∀ machine ∈ (executions [.step, .step, .step] longLoaded).take 3,
      machine.StaysInside longLoadImage.length := by decide +kernel
  have hcounters : ((executions [.step, .step, .step] longLoaded).take 3).map (·.cpu.counter) =
      [0x200, 0x204, 0x206] := by decide +kernel
  refine ⟨?_, hload, hplain, hstays, ?_⟩
  · cases hstep : longLoaded.machine.step with
    | done after => exact ⟨after, rfl, hlaw _ _ hstep⟩
    | fault reason left =>
      rw [hstep] at hfine
      cases hfine
  · rw [← hcounters]
    exact hfollows (ofSeed 0) longLoaded longLoadImage _ 3 hload hplain hcalls hstays

end Console

end ChipEight
