import ChipEight.Proofs.Console.Call

/-!
What goes on in a console in the course of calls, in the order of time: the instructions that
the processor takes up and the ticks of the 60 Hz clock. A stalled cycle leaves no trace.
-/

namespace ChipEight

inductive Happening where
  /-- The processor took up an instruction, which may have failed. -/
  | executed (instruction : Instruction)
  | ticked
  deriving DecidableEq, Repr

def Happening.isDraw : Happening → Bool
  | executed (.draw ..) => true
  | _ => false

namespace Console

def stepHappenings (console : Console) : List Happening :=
  if console.isStalled then [] else [.executed console.machine.next]

/-- The happenings of `runCycles`. -/
def cycleHappenings : Nat → Console → List Happening
  | 0, _ => []
  | count + 1, console =>
    console.spendCycle.stepHappenings ++
      match console.spendCycle.step with
      | .done next => cycleHappenings count next
      | .fault _ _ => []

/-- The ticks that follow the cycles of a frame. -/
def tickHappenings (nanoseconds : Nat) : Outcome Console → List Happening
  | .done next => List.replicate (next.ticksDue nanoseconds) .ticked
  | .fault _ _ => []

def frameHappenings (console : Console) (nanoseconds : Nat) : List Happening :=
  cycleHappenings (console.cyclesDue nanoseconds)
      (console.earnCycles (Clock.seconds nanoseconds)) ++
    tickHappenings nanoseconds (console.frameCycles nanoseconds)

def callHappenings (console : Console) : Call → List Happening
  | .step => console.stepHappenings
  | .frame nanoseconds => console.frameHappenings nanoseconds
  | _ => []

/-- The happenings of a whole history of calls. -/
def happenings : List Call → Console → List Happening
  | [], _ => []
  | call :: calls, console =>
    console.callHappenings call ++ happenings calls (console.perform call)

theorem ticked_not_mem_cycleHappenings (count : Nat) (console : Console) :
    Happening.ticked ∉ cycleHappenings count console := by
  induction count generalizing console with
  | zero => simp [cycleHappenings]
  | succ count ih =>
    rw [cycleHappenings, List.mem_append, not_or]
    constructor
    · rw [stepHappenings]
      split <;> simp
    · cases console.spendCycle.step with
      | done next => exact ih next
      | fault reason next => simp

theorem eq_ticked_of_mem_tickHappenings {nanoseconds : Nat} {outcome : Outcome Console}
    {happening : Happening} (h : happening ∈ tickHappenings nanoseconds outcome) :
    happening = .ticked := by
  cases outcome with
  | done next => exact List.eq_of_mem_replicate h
  | fault reason next => simp [tickHappenings] at h

end Console

end ChipEight
