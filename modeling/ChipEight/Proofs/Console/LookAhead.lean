import ChipEight.Console.Listing
import ChipEight.Proofs.Console.Call

/-!
A look ahead lists what the console itself goes on to execute. It runs a copy in which no draw has
to wait, while the console stalls after a draw until the vertical blank comes. Between them there
is no other difference than the mark of a waiting draw, which no instruction looks at.
-/

namespace ChipEight

/-- Outcomes that one view does not tell apart are of the same kind. -/
theorem Outcome.alike_of_map_eq {State Other View : Type} {view : State → View}
    {view' : Other → View} {first : Outcome State} {second : Outcome Other}
    (h : first.map view = second.map view') :
    (∃ state other, first = .done state ∧ second = .done other ∧ view state = view' other) ∨
      ∃ reason state other, first = .fault reason state ∧ second = .fault reason other ∧
        view state = view' other := by
  cases first with
  | done state =>
    cases second with
    | done other => exact .inl ⟨state, other, rfl, rfl, Outcome.done.inj h⟩
    | fault _ _ => cases h
  | fault reason state =>
    cases second with
    | done _ => cases h
    | fault found other =>
      obtain ⟨rfl, hview⟩ := Outcome.fault.inj h
      exact .inr ⟨reason, state, other, rfl, rfl, hview⟩

namespace Machine

/-- The machine with no draw waiting. -/
def settled (machine : Machine) : Machine :=
  machine.onScreen (·.endBlank)

theorem execute_settled (machine : Machine) (instruction : Instruction) :
    (machine.settled.execute instruction).map settled =
      (machine.execute instruction).map settled := by
  cases instruction with
  | scroll move => cases move <;> rfl
  | call target =>
    have hpush : machine.settled.cpu.stack.push? machine.settled.cpu.counter =
        machine.cpu.stack.push? machine.cpu.counter := rfl
    simp only [execute, call, hpush]
    cases machine.cpu.stack.push? machine.cpu.counter <;> rfl
  | returnFromCall =>
    have hpop : machine.settled.cpu.stack.pop? = machine.cpu.stack.pop? := rfl
    simp only [execute, returnFromCall, hpop]
    cases machine.cpu.stack.pop? <;> rfl
  | skip condition =>
    have hholds : machine.settled.holds condition = machine.holds condition := by
      cases condition <;> rfl
    simp only [execute, skipIf, hholds]
    split <;> rfl
  | awaitKey x =>
    have hkeypad : machine.settled.keypad = machine.keypad := rfl
    simp only [execute, awaitKey, hkeypad]
    cases machine.keypad.released? <;> rfl
  | _ => rfl

theorem step_settled (machine : Machine) :
    machine.settled.step.map settled = machine.step.map settled := by
  have hexecute : (machine.settled.fetched.execute machine.settled.next).map settled =
      (machine.fetched.execute machine.next).map settled :=
    machine.fetched.execute_settled machine.next
  rw [step_eq, step_eq]
  rcases Outcome.alike_of_map_eq hexecute with
    ⟨after, other, hafter, hother, hsame⟩ | ⟨reason, left, other, hleft, hother, hsame⟩
  · rw [hafter, hother]
    exact congrArg Outcome.done hsame
  · rw [hleft, hother]
    exact congrArg (fun left => Outcome.fault reason (left.onCpu (·.jump machine.cpu.counter)))
      hsame

end Machine

/-- The entry is about the instruction that the machine executes next. It stands where the counter
does, is what the word there decodes to, and its text has the second word of a long instruction. -/
structure Entry.Describes (entry : Entry) (machine : Machine) : Prop where
  address : entry.address = machine.cpu.counter
  instruction : entry.instruction =
    Instruction.decode (machine.memory.readWord machine.cpu.counter)
  executed : machine.step =
    match machine.fetched.execute entry.instruction with
    | .done after => .done after
    | .fault reason after => .fault reason (after.onCpu (·.jump machine.cpu.counter))
  short : entry.instruction ≠ .setIndexLong → entry.mnemonic = entry.instruction.mnemonic
  long : entry.instruction = .setIndexLong →
    entry.mnemonic =
      "LD  I, " ++ Hex.fixed 4 (machine.memory.readWord (machine.cpu.counter + 2)).toNat

/-- The address and the instruction of an entry. -/
def Entry.place (entry : Entry) : Address × Instruction :=
  (entry.address, entry.instruction)

namespace Console

/-- Where the counter stands and the instruction that it leads to. -/
def place (console : Console) : Address × Instruction :=
  (console.machine.cpu.counter, console.machine.next)

/-- The vertical blank comes, and nothing else of a tick. -/
def endBlank (console : Console) : Console :=
  console.onMachine (·.settled)

/-- The vertical blank comes if the processor waits for it. -/
def freed (console : Console) : Console :=
  if console.isStalled then console.endBlank else console

/-- Executes instructions one after another, up to one that fails. None of them is kept waiting. -/
def proceed : Nat → Console → Outcome Console
  | 0, console => .done console
  | count + 1, console =>
    match console.freed.step with
    | .done next => proceed count next
    | .fault reason left => .fault reason left

/-- What moves a machine on that gets neither ticks nor keys. -/
inductive Stimulus where
  | step
  | endBlank
  deriving DecidableEq, Repr

/-- Steps with a blank before each of them. -/
def blankedSteps : Nat → List Stimulus
  | 0 => []
  | count + 1 => .endBlank :: .step :: blankedSteps count

/-- The instructions that are executed meanwhile, each with the counter before it, up to one that
fails. Steps of a stalled processor execute none. -/
def executedUnder : List Stimulus → Console → List (Address × Instruction)
  | [], _ => []
  | .endBlank :: stimuli, console => executedUnder stimuli console.endBlank
  | .step :: stimuli, console =>
    let later := match console.step with
      | .done next => executedUnder stimuli next
      | .fault _ _ => []
    if console.isStalled then later else console.place :: later

/-- The machine without the mark of a waiting draw. -/
def core (console : Console) : Machine :=
  console.machine.settled

theorem isStalled_freed (console : Console) : console.freed.isStalled = false := by
  unfold freed
  split
  · exact Bool.and_false _
  · next hfree => exact Bool.not_eq_true _ ▸ hfree

theorem core_freed (console : Console) : console.freed.core = console.core := by
  unfold freed
  split <;> rfl

theorem describes_nextEntry (console : Console) :
    console.nextEntry.Describes console.machine where
  address := rfl
  instruction := rfl
  executed := console.machine.step_eq
  short hshort := by
    unfold nextEntry Entry.ofMemory
    dsimp only
    split
    · next hlong => exact absurd hlong hshort
    · rfl
  long hlong := by
    have hdecode : Instruction.decode
        (console.machine.memory.readWord console.machine.cpu.counter) = .setIndexLong := hlong
    unfold nextEntry Entry.ofMemory
    simp only [hdecode]

theorem place_nextEntry (console : Console) : console.nextEntry.place = console.place :=
  rfl

theorem nextEntry_congr {first second : Console} (h : first.core = second.core) :
    first.nextEntry = second.nextEntry := by
  have hentry : Entry.ofMemory first.core.memory first.core.cpu.counter =
      Entry.ofMemory second.core.memory second.core.cpu.counter := by rw [h]
  exact hentry

theorem map_core_step {console : Console} (hfree : console.isStalled = false) :
    console.step.map core = console.core.step.map Machine.settled := by
  have hsettled : console.core.step.map Machine.settled =
      console.machine.step.map Machine.settled := console.machine.step_settled
  rw [hsettled, step_eq, hfree]
  cases console.machine.step <;> rfl

/-- A run either makes all its instructions or breaks off at one that fails. -/
theorem proceed_cases (count : Nat) (console : Console) :
    (∃ reached, proceed count console = .done reached) ∨
      ∃ ran < count, ∃ reached reason left, proceed ran console = .done reached ∧
        reached.freed.step = .fault reason left := by
  induction count generalizing console with
  | zero => exact .inl ⟨console, rfl⟩
  | succ count ih =>
    cases hstep : console.freed.step with
    | fault reason left => exact .inr ⟨0, Nat.succ_pos count, console, reason, left, rfl, hstep⟩
    | done next =>
      rcases ih next with ⟨reached, hreached⟩ | ⟨ran, hran, reached, reason, left, hreached, hfault⟩
      · refine .inl ⟨reached, ?_⟩
        rw [proceed, hstep]
        exact hreached
      · refine .inr ⟨ran + 1, Nat.succ_lt_succ hran, reached, reason, left, ?_, hfault⟩
        rw [proceed, hstep]
        exact hreached

theorem foretell_prefix (count more : Nat) (console : Console) :
    foretell count console <+: foretell (count + more) console := by
  induction count generalizing console with
  | zero => exact List.nil_prefix
  | succ count ih =>
    rw [Nat.add_right_comm, foretell, foretell]
    cases console.step with
    | done next => exact List.cons_prefix_cons.mpr ⟨rfl, ih next⟩
    | fault reason left => exact List.prefix_refl _

/-- The copy of a look ahead never waits, and is otherwise in the same state as the console. -/
structure Shadows (copy console : Console) : Prop where
  unwaiting : copy.configuration.dialect.waitForBlank = false
  core : copy.core = console.core

theorem shadows_unstalled (console : Console) : Shadows console.unstalled console :=
  ⟨rfl, rfl⟩

namespace Shadows

variable {copy console : Console}

theorem nextEntry (h : Shadows copy console) : copy.nextEntry = console.nextEntry :=
  nextEntry_congr h.core

theorem place_nextEntry (h : Shadows copy console) : copy.nextEntry.place = console.place := by
  rw [h.nextEntry, console.place_nextEntry]

theorem freed (h : Shadows copy console) : Shadows copy console.freed :=
  ⟨h.unwaiting, h.core.trans console.core_freed.symm⟩

theorem endBlank (h : Shadows copy console) : Shadows copy console.endBlank :=
  ⟨h.unwaiting, h.core⟩

/-- Where the console does not wait, the copy makes the same step. -/
theorem step (h : Shadows copy console) (hfree : console.isStalled = false) :
    (∃ next reached, copy.step = .done next ∧ console.step = .done reached ∧
        Shadows next reached) ∨
      ∃ reason left left', copy.step = .fault reason left ∧ console.step = .fault reason left' := by
  have hcopy : copy.isStalled = false := by
    rw [isStalled, h.unwaiting, Bool.false_and]
  have hsteps : copy.step.map Console.core = console.step.map Console.core := by
    rw [map_core_step hcopy, map_core_step hfree, h.core]
  rcases Outcome.alike_of_map_eq hsteps with
    ⟨next, reached, hnext, hreached, hcore⟩ | ⟨reason, left, left', hleft, hleft', -⟩
  · have hkept : next.configuration = copy.configuration := by
      have hsetting := copy.setting_step
      rw [hnext] at hsetting
      exact congrArg Prod.fst hsetting
    refine .inl ⟨next, reached, hnext, hreached, ?_, hcore⟩
    rw [hkept, h.unwaiting]
  · exact .inr ⟨reason, left, left', hleft, hleft'⟩

/-- The list up to the instructions that were executed, and what the copy would list then. -/
theorem foretell_add (h : Shadows copy console) {ran : Nat} {reached : Console}
    (hran : proceed ran console = .done reached) :
    ∃ later entries, Shadows later reached ∧ entries.length = ran ∧
      ∀ rest, foretell (ran + rest) copy = entries ++ foretell rest later := by
  induction ran generalizing copy console with
  | zero =>
    cases hran
    exact ⟨copy, [], h, rfl, fun rest => by rw [Nat.zero_add, List.nil_append]⟩
  | succ ran ih =>
    rw [proceed] at hran
    rcases h.freed.step console.isStalled_freed with
      ⟨next, after, hnext, hafter, hshadows⟩ | ⟨_, _, _, _, hfault⟩
    · rw [hafter] at hran
      obtain ⟨later, entries, hlater, hlength, hsplit⟩ := ih hshadows hran
      refine ⟨later, copy.nextEntry :: entries, hlater, by rw [List.length_cons, hlength], ?_⟩
      intro rest
      rw [Nat.add_right_comm, foretell, hnext, List.cons_append, ← hsplit]
    · rw [hfault] at hran
      cases hran

/-- The first entry of what is left to list. -/
theorem foretell_succ (h : Shadows copy console) (count : Nat) :
    (∃ next reached, console.freed.step = .done reached ∧ Shadows next reached ∧
        foretell (count + 1) copy = console.nextEntry :: foretell count next) ∨
      ∃ reason left, console.freed.step = .fault reason left ∧
        foretell (count + 1) copy = [console.nextEntry] := by
  rw [← h.nextEntry, foretell]
  rcases h.freed.step console.isStalled_freed with
    ⟨next, reached, hnext, hreached, hshadows⟩ | ⟨reason, _, left, hfault, hfault'⟩
  · rw [hnext]
    exact .inl ⟨next, reached, hreached, hshadows, rfl⟩
  · rw [hfault]
    exact .inr ⟨reason, left, hfault', rfl⟩

theorem executedUnder_eq (h : Shadows copy console) (stimuli : List Stimulus) :
    executedUnder stimuli console =
      (foretell (executedUnder stimuli console).length copy).map Entry.place := by
  induction stimuli generalizing copy console with
  | nil => rfl
  | cons stimulus stimuli ih =>
    cases stimulus with
    | endBlank => exact ih h.endBlank
    | step =>
      rw [executedUnder]
      cases hstalled : console.isStalled with
      | true =>
        have hstays : console.step = .done console := if_pos hstalled
        rw [if_pos rfl, hstays]
        exact ih h
      | false =>
        rcases h.step hstalled with
          ⟨next, reached, hnext, hreached, hshadows⟩ | ⟨reason, _, left, hfault, hfault'⟩
        · have hrest := ih hshadows
          rw [if_neg Bool.false_ne_true, hreached, List.length_cons, foretell, hnext,
            List.map_cons, h.place_nextEntry]
          exact congrArg _ hrest
        · rw [if_neg Bool.false_ne_true, hfault', List.length_singleton, foretell, hfault,
            List.map_singleton, h.place_nextEntry]

/-- Where a blank comes before each step, each step executes an instruction. -/
theorem executedUnder_blankedSteps (h : Shadows copy console) (count : Nat) :
    executedUnder (blankedSteps count) console = (foretell count copy).map Entry.place := by
  induction count generalizing copy console with
  | zero => rfl
  | succ count ih =>
    have hfree : console.endBlank.isStalled = false := Bool.and_false _
    have hplace : copy.nextEntry.place = console.endBlank.place := h.endBlank.place_nextEntry
    rw [blankedSteps, executedUnder, executedUnder, hfree, if_neg Bool.false_ne_true, foretell]
    rcases h.endBlank.step hfree with
      ⟨next, reached, hnext, hreached, hshadows⟩ | ⟨reason, _, left, hfault, hfault'⟩
    · rw [hnext, hreached, List.map_cons, hplace]
      exact congrArg _ (ih hshadows)
    · rw [hfault, hfault', List.map_singleton, hplace]

theorem length_of_done (h : Shadows copy console) {count : Nat} {reached : Console}
    (hreached : proceed count console = .done reached) : (foretell count copy).length = count := by
  obtain ⟨later, entries, -, hlength, hsplit⟩ := h.foretell_add hreached
  have hlist : foretell count copy = entries ++ [] := hsplit 0
  rw [hlist, List.append_nil, hlength]

/-- The instruction that fails is the last of the list. -/
theorem length_of_fault (h : Shadows copy console) {count j : Nat} {reached left : Console}
    {reason : Fault} (hj : j < count) (hreached : proceed j console = .done reached)
    (hfault : reached.freed.step = .fault reason left) :
    (foretell count copy).length = j + 1 := by
  obtain ⟨later, entries, hlater, hlength, hsplit⟩ := h.foretell_add hreached
  obtain ⟨rest, rfl⟩ : ∃ rest, count = j + (rest + 1) := ⟨count - j - 1, by omega⟩
  rcases hlater.foretell_succ rest with ⟨_, _, hdone, -⟩ | ⟨_, _, -, hlast⟩
  · rw [hdone] at hfault
    cases hfault
  · rw [hsplit, hlast, List.length_append, hlength, List.length_singleton]

theorem getElem?_foretell (h : Shadows copy console) {count j : Nat} {reached : Console}
    (hj : j < count) (hreached : proceed j console = .done reached) :
    ∃ entry, (foretell count copy)[j]? = some entry ∧ entry.Describes reached.machine := by
  refine ⟨reached.nextEntry, ?_, reached.describes_nextEntry⟩
  obtain ⟨later, entries, hlater, hlength, hsplit⟩ := h.foretell_add hreached
  obtain ⟨rest, rfl⟩ : ∃ rest, count = j + (rest + 1) := ⟨count - j - 1, by omega⟩
  rw [hsplit, List.getElem?_append_right (Nat.le_of_eq hlength), hlength, Nat.sub_self]
  rcases hlater.foretell_succ rest with ⟨_, _, -, -, hlist⟩ | ⟨_, _, -, hlist⟩
  all_goals rw [hlist, List.getElem?_cons_zero]

theorem length_foretell_le (h : Shadows copy console) (count : Nat) :
    (foretell count copy).length ≤ count := by
  rcases proceed_cases count console with
    ⟨reached, hreached⟩ | ⟨ran, hran, reached, reason, left, hreached, hfault⟩
  · exact Nat.le_of_eq (h.length_of_done hreached)
  · rw [h.length_of_fault hran hreached hfault]
    exact hran

/-- Before every listed instruction the console has executed the ones listed before it. -/
theorem exists_proceed (h : Shadows copy console) {count j : Nat}
    (hj : j < (foretell count copy).length) :
    j < count ∧ ∃ reached, proceed j console = .done reached := by
  have hcount := h.length_foretell_le count
  refine ⟨Nat.lt_of_lt_of_le hj hcount, ?_⟩
  rcases proceed_cases j console with
    hreached | ⟨ran, hran, reached, reason, left, hreached, hfault⟩
  · exact hreached
  · -- the list would have ended before
    have hlength := h.length_of_fault (by omega : ran < count) hreached hfault
    omega

end Shadows

/-- The entries describe the instructions that the console comes to, `count` of them unless one
before the last fails, which ends the list. -/
structure ComesTo (console : Console) (count : Nat) (entries : List Entry) : Prop where
  reached : ∀ j < entries.length, ∃ reached entry, proceed j console = .done reached ∧
    entries[j]? = some entry ∧ entry.Describes reached.machine
  full : ∀ reached, proceed count console = .done reached → entries.length = count
  brokenOff : ∀ j < count, ∀ reached reason left, proceed j console = .done reached →
    reached.freed.step = .fault reason left → entries.length = j + 1

theorem Shadows.comesTo {copy console : Console} (h : Shadows copy console) (count : Nat) :
    ComesTo console count (foretell count copy) where
  reached j hj := by
    obtain ⟨hcount, reached, hreached⟩ := h.exists_proceed hj
    obtain ⟨entry, hentry, hdescribes⟩ := h.getElem?_foretell hcount hreached
    exact ⟨reached, entry, hreached, hentry, hdescribes⟩
  full _ hreached := h.length_of_done hreached
  brokenOff _ hj _ _ _ hreached hfault := h.length_of_fault hj hreached hfault

/-- A look ahead lists what the console comes to, however its steps and the vertical blanks between
them follow on one another; a longer one begins with the shorter. -/
theorem peek_foretells_execution (console : Console) (count : Nat) :
    ComesTo console count (console.peek count) ∧
      executedUnder (blankedSteps count) console = (console.peek count).map Entry.place ∧
      (∀ stimuli, executedUnder stimuli console =
        (console.peek (executedUnder stimuli console).length).map Entry.place) ∧
      ∀ more, console.peek count <+: console.peek (count + more) := by
  have hshadows : Shadows console.unstalled console := console.shadows_unstalled
  exact ⟨hshadows.comesTo count, hshadows.executedUnder_blankedSteps count,
    hshadows.executedUnder_eq, fun more => foretell_prefix count more console.unstalled⟩

/-- A program that draws, is kept waiting for the blank there, and then overwrites its jump with a
return, which fails outside of a routine. -/
example :
    let console := ofImage [0xA2, 0x06, 0xD0, 0x11, 0xF0, 0x55, 0x12, 0xEE]
    (console.peek 9).map Entry.place =
        [(0x200, Instruction.decode 0xA206), (0x202, Instruction.decode 0xD011),
          (0x204, Instruction.decode 0xF055), (0x206, .returnFromCall)] ∧
      (executedUnder (List.replicate 9 .step) console).length = 2 := by
  decide +kernel

end Console

end ChipEight
