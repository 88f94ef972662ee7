import ChipEight.Machine.Execute

/-!
What an instruction changes. Most of them change the processor alone, and only a call, a return,
a restart and a store to the delay timer change more of it than numbers to compute with. Eight
instructions change the screen: a change of the raster always sets the mark of a change, and a
draw always makes the processor wait. Three change the sound.
-/

namespace ChipEight

namespace Screen

/-- All that a host shows: the four planes and the resolution. -/
def raster (screen : Screen) : Vector Plane 4 × Bool :=
  (screen.planes, screen.highResolution)

/-- Between the two screens no change of the raster went by without a mark. -/
def Reports (old new : Screen) : Prop :=
  new.changed = false → old.changed = false ∧ new.raster = old.raster

theorem Reports.refl (screen : Screen) : Reports screen screen :=
  fun hquiet => ⟨hquiet, rfl⟩

theorem Reports.trans {a b c : Screen} (hab : Reports a b) (hbc : Reports b c) :
    Reports a c := by
  intro hquiet
  obtain ⟨hb, hraster⟩ := hbc hquiet
  obtain ⟨ha, hraster'⟩ := hab hb
  exact ⟨ha, hraster.trans hraster'⟩

theorem Reports.of_changed {old new : Screen} (h : new.changed = true) : Reports old new := by
  intro hquiet
  simp [h] at hquiet

theorem changed_scroll (screen : Screen) (scaled : Bool) (move : Scroll) :
    (screen.scroll scaled move).changed = true := by
  cases move <;> rfl

theorem reports_selectPlanes (screen : Screen) (mask : Nat) :
    Reports screen (screen.selectPlanes mask) :=
  fun hquiet => ⟨hquiet, rfl⟩

theorem reports_endBlank (screen : Screen) : Reports screen screen.endBlank :=
  fun hquiet => ⟨hquiet, rfl⟩

end Screen

namespace Processor

/-- Nothing but registers is given new values. -/
theorem setAll_registers (cpu : Processor) (registers : List Register) (values : List UInt8) :
    cpu.setAll registers values =
      { cpu with registers := (cpu.setAll registers values).registers } := by
  induction registers generalizing cpu values with
  | nil => rfl
  | cons x registers ih =>
    cases values with
    | nil => rfl
    | cons value values => exact ih (cpu.set x value) values

theorem compute_registers (cpu : Processor) (operation : Arithmetic) (x y : Register) :
    cpu.compute operation x y =
      { cpu with registers := (cpu.compute operation x y).registers } := by
  cases operation with
  | or | and | xor =>
    simp only [compute, setLogic]
    split <;> rfl
  | _ => rfl

end Processor

/-- What no sum, no load and no jump changes. -/
def Processor.context (cpu : Processor) : Dialect × CallStack × Timer :=
  (cpu.dialect, cpu.stack, cpu.delay)

def Instruction.keepsContext : Instruction → Bool
  | .call _ | .returnFromCall | .exit | .setDelay _ => false
  | _ => true

namespace Machine

/-- The screen after an instruction. -/
def screenAfter (machine : Machine) : Instruction → Screen
  | .scroll move => machine.screen.scroll machine.cpu.dialect.scaleScrolls move
  | .clearScreen => machine.screen.clear
  | .setResolution high => machine.screen.setResolution high
  | .draw x y rows =>
    (machine.screen.draw (machine.spriteAtIndex rows) (machine.cpu.get x) (machine.cpu.get y)
      machine.cpu.dialect.wrapSprites).1
  | .selectPlanes mask => machine.screen.selectPlanes mask.val
  | _ => machine.screen

/-- The sound after an instruction. -/
def soundAfter (machine : Machine) : Instruction → Sound
  | .loadPattern => machine.sound.loadPattern machine.memory machine.cpu.index
  | .setSound x => machine.sound.setTimer (machine.cpu.get x)
  | .setPitch x => machine.sound.setPitch (machine.cpu.get x)
  | _ => machine.sound

theorem context_execute (machine : Machine) {instruction : Instruction}
    (h : instruction.keepsContext = true) :
    (machine.execute instruction).state.cpu.context = machine.cpu.context := by
  cases instruction with
  | call _ | returnFromCall | exit | setDelay _ => cases h
  | skip condition =>
    simp only [execute, skipIf, Outcome.state]
    split <;> rfl
  | awaitKey x =>
    simp only [execute, awaitKey, Outcome.state]
    split <;> rfl
  | arithmetic operation x y =>
    show (machine.cpu.compute operation x y).context = machine.cpu.context
    rw [Processor.compute_registers]
    rfl
  | loadRange _ _ | loadThrough _ =>
    show (machine.cpu.setAll _ _).context = machine.cpu.context
    rw [Processor.setAll_registers]
    rfl
  | saveFlags x => simp only [execute, Outcome.state, onCpu, Processor.saveFlags, Processor.context]
  | restoreFlags x =>
    simp only [execute, Outcome.state, onCpu, Processor.restoreFlags, Processor.context]
  | _ => rfl

theorem screen_sound_execute (machine : Machine) (instruction : Instruction) :
    ((machine.execute instruction).state.screen, (machine.execute instruction).state.sound) =
      (machine.screenAfter instruction, machine.soundAfter instruction) := by
  cases instruction with
  | call target =>
    simp only [execute, call, screenAfter, soundAfter]
    cases machine.cpu.stack.push? machine.cpu.counter <;> rfl
  | returnFromCall =>
    simp only [execute, returnFromCall, screenAfter, soundAfter]
    cases machine.cpu.stack.pop? <;> rfl
  | skip condition =>
    simp only [execute, skipIf, screenAfter, soundAfter, Outcome.state]
    split <;> rfl
  | awaitKey x =>
    simp only [execute, awaitKey, screenAfter, soundAfter, Outcome.state]
    split <;> rfl
  | loadPattern => simp only [execute, Outcome.state, onSound, screenAfter, soundAfter]
  | saveFlags x => simp only [execute, Outcome.state, onCpu, screenAfter, soundAfter]
  | restoreFlags x => simp only [execute, Outcome.state, onCpu, screenAfter, soundAfter]
  | _ => rfl

theorem screen_execute (machine : Machine) (instruction : Instruction) :
    (machine.execute instruction).state.screen = machine.screenAfter instruction :=
  congrArg Prod.fst (machine.screen_sound_execute instruction)

theorem sound_execute (machine : Machine) (instruction : Instruction) :
    (machine.execute instruction).state.sound = machine.soundAfter instruction :=
  congrArg Prod.snd (machine.screen_sound_execute instruction)

theorem reports_screenAfter (machine : Machine) (instruction : Instruction) :
    Screen.Reports machine.screen (machine.screenAfter instruction) := by
  cases instruction with
  | scroll move => exact .of_changed (Screen.changed_scroll _ _ move)
  | clearScreen => exact .of_changed rfl
  | setResolution high => exact .of_changed rfl
  | draw x y rows => exact .of_changed rfl
  | selectPlanes mask => exact Screen.reports_selectPlanes _ _
  | _ => exact .refl _

/-- The machine as its next instruction finds it, with the counter past the first word. -/
def fetched (machine : Machine) : Machine :=
  machine.onCpu fun cpu => (cpu.fetch machine.memory).2

/-- The instruction at the counter. -/
def next (machine : Machine) : Instruction :=
  Instruction.decode (machine.memory.readWord machine.cpu.counter)

/-- A fault puts the counter back to the instruction that failed. -/
theorem step_eq (machine : Machine) :
    machine.step =
      match machine.fetched.execute machine.next with
      | .done after => .done after
      | .fault reason after => .fault reason (after.onCpu (·.jump machine.cpu.counter)) :=
  rfl

/-- A step leaves what its instruction leaves, but for the counter in case of a fault. -/
theorem state_step {Part : Type} (part : Machine → Part)
    (hjump : ∀ (machine : Machine) address, part (machine.onCpu (·.jump address)) = part machine)
    (machine : Machine) :
    part machine.step.state = part (machine.fetched.execute machine.next).state := by
  rw [step_eq]
  cases machine.fetched.execute machine.next with
  | done after => rfl
  | fault reason left => exact hjump left _

theorem screen_step (machine : Machine) :
    machine.step.state.screen = machine.fetched.screenAfter machine.next := by
  rw [← screen_execute]
  exact state_step Machine.screen (fun _ _ => rfl) machine

theorem reports_step (machine : Machine) :
    Screen.Reports machine.screen machine.step.state.screen := by
  rw [screen_step]
  exact reports_screenAfter machine.fetched machine.next

theorem execute_of_step {machine after : Machine} (h : machine.step = .done after) :
    machine.fetched.execute machine.next = .done after := by
  rw [step_eq] at h
  cases hresult : machine.fetched.execute machine.next with
  | done reached => rwa [hresult] at h
  | fault reason left =>
    rw [hresult] at h
    cases h

end Machine

end ChipEight
