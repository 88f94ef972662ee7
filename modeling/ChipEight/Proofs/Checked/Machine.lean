import ChipEight.Console
import ChipEight.Proofs.Checked.Processor
import ChipEight.Proofs.Checked.Screen

/-!
The machine with every index, slice, sum, difference, product, quotient and shift checked. A
step of it never traps, whatever the memory, the registers and the word at the counter are, and
it is the step of the machine without checks.
-/

namespace ChipEight.Checked

/-- Writes bytes from an address on, going on at zero after the last. -/
def writeAll (memory : Memory) (address : Address) (values : List UInt8) : Checked Memory :=
  values.zipIdx.foldlM (fun memory item => write memory (address + UInt16.ofNat item.2) item.1)
    memory

def store (machine : Machine) (registers : List Nat) : Checked Machine := do
  let values ← registers.mapM (get machine.cpu.registers)
  let memory ← writeAll machine.memory machine.cpu.index values
  return { machine with memory }

def loadRegister (memory : Memory) (cpu : Processor) (item : Nat × Nat) : Checked Processor := do
  let value ← read memory (cpu.index + UInt16.ofNat item.2)
  setRegister cpu item.1 value

def load (machine : Machine) (registers : List Nat) : Checked Machine := do
  let cpu ← registers.zipIdx.foldlM (loadRegister machine.memory) machine.cpu
  return { machine with cpu }

def loadPatternByte (memory : Memory) (address : Address) (pattern : Vector UInt8 16)
    (offset : Nat) : Checked (Vector UInt8 16) := do
  let byte ← read memory (address + UInt16.ofNat offset)
  set pattern offset byte

def loadPattern (sound : Sound) (memory : Memory) (address : Address) : Checked Sound := do
  let sound := sound.setVoice .pattern
  let pattern ← (List.range 16).foldlM (loadPatternByte memory address) sound.pattern
  return { sound with pattern }

def holds (machine : Machine) (operands : Operands) (condition : Condition) : Checked Bool := do
  let a ← get machine.cpu.registers operands.x
  match condition with
  | .equalsByte _ _ => return a = UInt8.ofNat operands.nn
  | .differsByte _ _ => return a ≠ UInt8.ofNat operands.nn
  | .equals _ _ =>
    let b ← get machine.cpu.registers operands.y
    return a = b
  | .differs _ _ =>
    let b ← get machine.cpu.registers operands.y
    return a ≠ b
  | .keyDown _ => return machine.keypad.isByteDown a
  | .keyUp _ => return !machine.keypad.isByteDown a

/-- A sprite of the given size at the index. -/
def readRows (machine : Machine) (width height bytesPerRow : Nat) : Checked Sprite := do
  let planeLength ← mul .size height bytesPerRow
  let length ← mul .size planeLength machine.screen.selectedCount
  let data ← readSprite machine.memory machine.cpu.index length
  return { width, height, bytesPerRow, data }

/-- No rows stand for sixteen rows of two bytes each. -/
def spriteAtIndex (machine : Machine) (rows : Nat) : Checked Sprite :=
  if rows = 0 then readRows machine 16 16 2 else readRows machine 8 rows 1

def drawAtIndex (machine : Machine) (operands : Operands) : Checked Machine := do
  let sprite ← spriteAtIndex machine operands.n
  let x ← get machine.cpu.registers operands.x
  let y ← get machine.cpu.registers operands.y
  let drawn ← draw machine.screen sprite x.toNat y.toNat machine.cpu.dialect.wrapSprites
  let cpu ← setFlag machine.cpu (0 < drawn.2)
  return { machine with screen := drawn.1, cpu }

def awaitKey (machine : Machine) (x : Nat) : Checked Processor :=
  match machine.keypad.released? with
  | some key => setRegister machine.cpu x (UInt8.ofNat key.val)
  | none => return machine.cpu.jump (machine.cpu.counter - 2)

/-- The machine with the processor that comes out. -/
def onCpu (machine : Machine) (change : Checked Processor) : Checked (Outcome Machine) := do
  let cpu ← change
  return .done { machine with cpu }

/-- Executes an instruction, of which only the kind is taken: its operands are the given numbers.
Instructions that index nothing and compute nothing are executed as they are. -/
def execute (machine : Machine) (operands : Operands) (instruction : Instruction) :
    Checked (Outcome Machine) := do
  let cpu := machine.cpu
  match instruction with
  | .native _ | .returnFromCall | .exit | .setResolution _ | .jump _ | .call _ | .setIndex _
  | .selectPlanes _ | .unknown _ => return machine.execute instruction
  | .scroll move =>
    let screen ← scroll machine.screen cpu.dialect.scaleScrolls operands.n move
    return .done { machine with screen }
  | .clearScreen =>
    let screen ← onSelected machine.screen fun _ => .ok { }
    return .done { machine with screen }
  | .skip condition =>
    let isMet ← holds machine operands condition
    onCpu machine (skipNextIf cpu machine.memory isMet)
  | .storeRange _ _ =>
    let registers ← registerRange operands.x operands.y
    let machine ← store machine registers
    return .done machine
  | .loadRange _ _ =>
    let registers ← registerRange operands.x operands.y
    let machine ← load machine registers
    return .done machine
  | .setByte _ _ => onCpu machine (setRegister cpu operands.x (UInt8.ofNat operands.nn))
  | .addByte _ _ =>
    let value ← get cpu.registers operands.x
    onCpu machine (setRegister cpu operands.x (value + UInt8.ofNat operands.nn))
  | .arithmetic operation _ _ => onCpu machine (compute cpu operation operands.x operands.y)
  | .jumpOffset _ _ =>
    let target ← offsetTarget cpu operands.x operands.nnn
    return .done (machine.onCpu (·.jump target))
  | .random _ _ =>
    let drawn := cpu.random.next
    onCpu machine (setRegister { cpu with random := drawn.2 } operands.x
      (drawn.1 &&& UInt8.ofNat operands.nn))
  | .draw _ _ _ =>
    let machine ← drawAtIndex machine operands
    return .done machine
  | .setIndexLong =>
    let fetched ← fetch cpu machine.memory
    return .done { machine with cpu := { fetched.2 with index := fetched.1 } }
  | .loadPattern =>
    let sound ← loadPattern machine.sound machine.memory cpu.index
    return .done { machine with sound }
  | .readDelay _ => onCpu machine (setRegister cpu operands.x cpu.delay.remaining)
  | .awaitKey _ => onCpu machine (awaitKey machine operands.x)
  | .setDelay _ =>
    let value ← get cpu.registers operands.x
    return .done (machine.onCpu ({ · with delay := ⟨value⟩ }))
  | .setSound _ =>
    let value ← get cpu.registers operands.x
    return .done (machine.onSound (·.setTimer value))
  | .addToIndex _ =>
    let value ← get cpu.registers operands.x
    return .done (machine.onCpu fun cpu => { cpu with index := cpu.index + value.toUInt16 })
  | .pointToDigit _ =>
    let value ← get cpu.registers operands.x
    let index ← glyphAddress Memory.fontStart Font.smallHeight value
    return .done (machine.onCpu ({ · with index }))
  | .pointToBigDigit _ =>
    let value ← get cpu.registers operands.x
    let index ← glyphAddress Memory.bigFontStart Font.bigHeight value
    return .done (machine.onCpu ({ · with index }))
  | .storeDecimal _ =>
    let value ← get cpu.registers operands.x
    let digits ← decimalDigits value
    let memory ← writeAll machine.memory cpu.index digits
    return .done { machine with memory }
  | .setPitch _ =>
    let value ← get cpu.registers operands.x
    return .done (machine.onSound (·.setPitch value))
  | .storeThrough _ =>
    let machine ← store machine (List.range (operands.x + 1))
    onCpu machine (advanceIndex machine.cpu operands.x)
  | .loadThrough _ =>
    let machine ← load machine (List.range (operands.x + 1))
    onCpu machine (advanceIndex machine.cpu operands.x)
  | .saveFlags _ => onCpu machine (saveFlags cpu operands.x)
  | .restoreFlags _ => onCpu machine (restoreFlags cpu operands.x)

/-- Fetches, decodes and executes one instruction. A fault puts the counter back. -/
def step (machine : Machine) : Checked (Outcome Machine) := do
  let start := machine.cpu.counter
  let fetched ← fetch machine.cpu machine.memory
  let operands ← Operands.ofWord fetched.1
  let outcome ← execute { machine with cpu := fetched.2 } operands (Instruction.decode fetched.1)
  match outcome with
  | .done machine => return .done machine
  | .fault reason machine => return .fault reason (machine.onCpu (·.jump start))

def stepConsole (console : Console) : Checked (Outcome Console) :=
  if console.isStalled then return .done console
  else do
    let outcome ← step console.machine
    return outcome.map fun machine => { console with machine }

section Loops

/-- The address past a stretch of bytes, and the one past the byte after it. -/
theorem address_succ (address : Address) (k : Nat) :
    address + UInt16.ofNat (k + 1) = address + UInt16.ofNat k + 1 := by
  rw [UInt16.ofNat_add, UInt16.add_assoc]
  rfl

theorem writeAll_eq (memory : Memory) (address : Address) (values : List UInt8) :
    writeAll memory address values = .ok (memory.writeAll address values) := by
  suffices h : ∀ k, (values.zipIdx k).foldlM
      (fun memory item => write memory (address + UInt16.ofNat item.2) item.1) memory =
        .ok (memory.writeAll (address + UInt16.ofNat k) values) by
    rw [writeAll, h 0]
    exact congrArg (fun start => Except.ok (memory.writeAll start values)) (UInt16.add_zero address)
  intro k
  induction values generalizing memory k with
  | nil => rfl
  | cons value values ih =>
    rw [List.zipIdx_cons, List.foldlM_cons, write_eq, ok_bind, ih, address_succ, Memory.writeAll]

theorem store_eq (machine : Machine) (registers : List Register) :
    store machine (registers.map (·.val)) = .ok (machine.store registers) := by
  have hvalues : (registers.map (·.val)).mapM (get machine.cpu.registers) =
      .ok (registers.map machine.cpu.get) := by
    rw [List.mapM_map]
    exact mapM_eq fun x _ => get_register machine.cpu x
  rw [store, hvalues, ok_bind, writeAll_eq]
  rfl

theorem load_eq (machine : Machine) (registers : List Register) :
    load machine (registers.map (·.val)) = .ok (machine.load registers) := by
  suffices h : ∀ k cpu,
      ((registers.map (·.val)).zipIdx k).foldlM (loadRegister machine.memory) cpu =
        .ok (cpu.setAll registers
          (machine.memory.readAll (cpu.index + UInt16.ofNat k) registers.length)) by
    rw [load, h 0, ok_bind]
    exact congrArg (fun start => Except.ok (machine.onCpu (·.setAll registers
      (machine.memory.readAll start registers.length)))) (UInt16.add_zero _)
  intro k cpu
  induction registers generalizing cpu k with
  | nil => rfl
  | cons x registers ih =>
    have hfirst : loadRegister machine.memory cpu (x.val, k) =
        .ok (cpu.set x (machine.memory.read (cpu.index + UInt16.ofNat k))) := by
      rw [loadRegister, read_eq, ok_bind, setRegister_eq]
    rw [List.map_cons, List.zipIdx_cons, List.foldlM_cons, hfirst, ok_bind, ih, address_succ,
      List.length_cons, Memory.readAll, Processor.setAll]
    rfl

theorem loadPattern_eq (sound : Sound) (memory : Memory) (address : Address) :
    loadPattern sound memory address = .ok (sound.loadPattern memory address) := by
  -- After `i` passes the first `i` bytes are those of the memory.
  have hloop (start : Vector UInt8 16) :
      ∃ pattern, (List.range 16).foldlM (loadPatternByte memory address) start = .ok pattern ∧
        ∀ (k : Nat) (hk : k < 16), k < (List.range 16).length →
          pattern[k] = memory.read (address + UInt16.ofNat k) := by
    refine foldlM_spec (fun i pattern => ∀ (k : Nat) (hk : k < 16), k < i →
        pattern[k] = memory.read (address + UInt16.ofNat k))
      (fun i pattern offset hoffset hbefore => ?_) (fun k hk h => absurd h (Nat.not_lt_zero k))
    obtain ⟨hi, rfl⟩ := List.getElem?_eq_some_iff.mp hoffset
    rw [List.length_range] at hi
    rw [List.getElem_range, loadPatternByte, read_eq, ok_bind]
    refine ⟨_, set_eq pattern ⟨i, hi⟩ _, fun k hk hlt => ?_⟩
    rw [Vector.getElem_set]
    by_cases hlast : i = k
    · rw [if_pos hlast, hlast]
    · rw [if_neg hlast]
      exact hbefore k hk (by omega)
  obtain ⟨pattern, hrun, hpattern⟩ := hloop (sound.setVoice .pattern).pattern
  have hread : pattern = Vector.ofFn fun k => memory.read (address + UInt16.ofNat k.val) := by
    ext k hk
    rw [hpattern k hk (by rwa [List.length_range]), Vector.getElem_ofFn]
  rw [loadPattern, hrun, ok_bind, hread]
  rfl

end Loops

theorem holds_eq (machine : Machine) {operands : Operands} {condition : Condition}
    (h : operands.MatchesCondition condition) :
    holds machine operands condition = .ok (machine.holds condition) := by
  cases condition with
  | equalsByte x value | differsByte x value =>
    obtain ⟨hx, rfl⟩ := h
    rw [holds, ← hx, get_register]
    rfl
  | equals x y | differs x y =>
    obtain ⟨hx, hy⟩ := h
    rw [holds, ← hx, ← hy, get_register, ok_bind]
    simp only [get_register]
    rfl
  | keyDown x | keyUp x =>
    have hx : x.val = operands.x := h
    rw [holds, ← hx, get_register]
    rfl

theorem readRows_eq (machine : Machine) (width : Nat) {height bytesPerRow : Nat}
    (h : height * bytesPerRow ≤ 32) :
    readRows machine width height bytesPerRow =
      .ok { width, height, bytesPerRow
            data := machine.memory.slice machine.cpu.index
              (height * bytesPerRow * machine.screen.selectedCount) } := by
  have hplanes : machine.screen.selectedCount ≤ 4 := selectedBefore_le machine.screen 4
  have hlength : height * bytesPerRow * machine.screen.selectedCount ≤ 32 * 4 :=
    Nat.mul_le_mul h hplanes
  rw [readRows, mul_size (by omega), ok_bind,
    mul_size (by omega), ok_bind, readSprite_eq _ _ hlength]
  rfl

theorem spriteAtIndex_eq (machine : Machine) (rows : Nibble) :
    spriteAtIndex machine rows.val = .ok (machine.spriteAtIndex rows) ∧
      FitsDraw (machine.spriteAtIndex rows) := by
  have hlt := rows.isLt
  rw [spriteAtIndex]
  by_cases hrows : rows = 0
  · subst hrows
    exact ⟨readRows_eq machine 16 (by decide), Nat.le_refl 16, Nat.two_pos, Nat.le_refl 2⟩
  · have hsprite : machine.spriteAtIndex rows =
        { width := 8, height := rows.val, bytesPerRow := 1
          data := machine.memory.slice machine.cpu.index
            (rows.val * 1 * machine.screen.selectedCount) } := by
      rw [Machine.spriteAtIndex, if_neg hrows]
    have hval : rows.val ≠ 0 := fun h => hrows (Fin.ext h)
    rw [if_neg hval, hsprite]
    exact ⟨readRows_eq machine 8 (by omega), Nat.le_of_lt hlt, Nat.one_pos, Nat.le_succ 1⟩

theorem drawAtIndex_eq (machine : Machine) {operands : Operands} {x y : Register} {rows : Nibble}
    (h : operands.Matches (.draw x y rows)) :
    drawAtIndex machine operands = .ok (machine.draw x y rows) := by
  obtain ⟨hx, hy, hrows⟩ := h
  obtain ⟨hsprite, hfits⟩ := spriteAtIndex_eq machine rows
  rw [drawAtIndex, ← hx, ← hy, ← hrows, hsprite, ok_bind, get_register, ok_bind, get_register,
    ok_bind, draw_eq _ _ hfits, ok_bind, setFlag_eq]
  rfl

theorem awaitKey_eq (machine : Machine) (x : Register) :
    onCpu machine (awaitKey machine x.val) = .ok (.done (machine.awaitKey x)) := by
  rw [awaitKey, Machine.awaitKey]
  cases machine.keypad.released? with
  | some key =>
    dsimp only
    rw [setRegister_eq]
    rfl
  | none => rfl

theorem execute_eq (machine : Machine) {operands : Operands} {instruction : Instruction}
    (h : operands.Matches instruction) :
    execute machine operands instruction = .ok (machine.execute instruction) := by
  cases instruction with
  | native _ | returnFromCall | exit | setResolution _ | jump _ | call _ | setIndex _
  | selectPlanes _ | unknown _ => rfl
  | scroll move =>
    rw [execute, scroll_eq machine.screen _ h]
    rfl
  | clearScreen =>
    rw [execute, onSelected_eq machine.screen fun _ => rfl]
    rfl
  | skip condition =>
    rw [execute, holds_eq machine h, ok_bind, skipNextIf_eq, Machine.execute, Machine.skipIf]
    split <;> rfl
  | storeRange x y =>
    obtain ⟨hx, hy⟩ := h
    rw [execute, ← hx, ← hy, registerRange_eq, ok_bind, store_eq]
    rfl
  | loadRange x y =>
    obtain ⟨hx, hy⟩ := h
    rw [execute, ← hx, ← hy, registerRange_eq, ok_bind, load_eq]
    rfl
  | setByte x value =>
    obtain ⟨hx, rfl⟩ := h
    rw [execute, ← hx, setRegister_eq]
    rfl
  | addByte x value =>
    obtain ⟨hx, rfl⟩ := h
    rw [execute, ← hx, get_register, ok_bind, setRegister_eq]
    rfl
  | arithmetic operation x y =>
    obtain ⟨hx, hy⟩ := h
    rw [execute, ← hx, ← hy, compute_eq]
    rfl
  | jumpOffset x base =>
    obtain ⟨hx, hbase⟩ := h
    rw [execute, ← hx, ← hbase, offsetTarget_eq]
    rfl
  | random x mask =>
    obtain ⟨hx, rfl⟩ := h
    rw [execute, ← hx, setRegister_eq]
    rfl
  | draw x y rows =>
    rw [execute, drawAtIndex_eq machine h]
    rfl
  | setIndexLong =>
    rw [execute, fetch_eq]
    rfl
  | loadPattern =>
    rw [execute, loadPattern_eq]
    rfl
  | readDelay x =>
    have hx : x.val = operands.x := h
    rw [execute, ← hx, setRegister_eq]
    rfl
  | awaitKey x =>
    have hx : x.val = operands.x := h
    rw [execute, ← hx]
    exact awaitKey_eq machine x
  | setDelay x | setSound x | addToIndex x | setPitch x =>
    have hx : x.val = operands.x := h
    rw [execute, ← hx, get_register]
    rfl
  | pointToDigit x | pointToBigDigit x =>
    have hx : x.val = operands.x := h
    rw [execute, ← hx, get_register, ok_bind, glyphAddress_eq (by decide) (by decide)]
    rfl
  | storeDecimal x =>
    have hx : x.val = operands.x := h
    rw [execute, ← hx, get_register, ok_bind, decimalDigits_eq, ok_bind, writeAll_eq]
    rfl
  | storeThrough x =>
    have hx : x.val = operands.x := h
    rw [execute, ← hx, range_eq_span, store_eq, ok_bind, advanceIndex_eq]
    rfl
  | loadThrough x =>
    have hx : x.val = operands.x := h
    rw [execute, ← hx, range_eq_span, load_eq, ok_bind, advanceIndex_eq]
    rfl
  | saveFlags x =>
    have hx : x.val = operands.x := h
    rw [execute, ← hx, saveFlags_eq]
    rfl
  | restoreFlags x =>
    have hx : x.val = operands.x := h
    rw [execute, ← hx, restoreFlags_eq]
    rfl

theorem step_eq (machine : Machine) : step machine = .ok machine.step := by
  rw [step, fetch_eq, ok_bind, Operands.ofWord_eq, ok_bind,
    execute_eq _ (Operands.matches_decode _), ok_bind, Machine.step]
  dsimp only
  cases Machine.execute _ _ <;> rfl

/-- No step traps, in whatever state the console is: every number of a register is below sixteen,
all sums, products and shifts fit, and every slice, pixel and row is where it may be. -/
theorem step_never_traps (console : Console) : stepConsole console = .ok console.step := by
  rw [stepConsole, Console.step]
  split
  · rfl
  · rw [step_eq]
    rfl

end ChipEight.Checked
