/-!
A countdown that stops at zero.
-/

namespace ChipEight

structure Timer where
  remaining : UInt8 := 0
  deriving DecidableEq, Repr

/-- What a tick found: a stopped timer, one that goes on, or one that it stopped. -/
inductive Timer.Tick where
  | idle
  | running
  | finished
  deriving DecidableEq, Repr

namespace Timer

def isRunning (timer : Timer) : Bool :=
  timer.remaining != 0

def tickReport (timer : Timer) : Tick :=
  if timer.remaining = 0 then .idle
  else if timer.remaining = 1 then .finished
  else .running

def tick (timer : Timer) : Timer :=
  if timer.remaining = 0 then timer else { remaining := timer.remaining - 1 }

theorem isRunning_eq_decide (timer : Timer) :
    timer.isRunning = decide (0 < timer.remaining.toNat) := by
  rw [Bool.eq_iff_iff, isRunning, bne_iff_ne, decide_eq_true_iff, Nat.pos_iff_ne_zero, ne_eq,
    ne_eq, ← UInt8.toNat_inj, UInt8.toNat_zero]

theorem toNat_tick (timer : Timer) :
    timer.tick.remaining.toNat = timer.remaining.toNat - 1 := by
  unfold tick
  split
  · rename_i h
    simp [h]
  · rename_i h
    have hne : timer.remaining.toNat ≠ 0 := fun h0 => h (UInt8.toNat_inj.mp (by simpa using h0))
    have hlt := timer.remaining.toNat_lt
    rw [UInt8.toNat_sub]
    simp only [UInt8.toNat_one] at *
    omega

end Timer

end ChipEight
