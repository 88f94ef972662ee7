import ChipEight.Proofs.Console.Moment
import ChipEight.Proofs.Sound.Phase

/-!
The timers count ticks and nothing else. Each holds the value that was stored in it last, less
the ticks since then, whatever the steps, the ticks and the host do in between. The two differ
in what stores a value: a restart of the program stops the delay timer only.
-/

namespace ChipEight

/-- A timer of the machine, with the value that an instruction stores in it. -/
structure Countdown where
  timer : Machine → Timer
  stored? : Machine → Instruction → Option UInt8

namespace Countdown

/-- A restart stores zero in the delay timer. -/
def delay : Countdown where
  timer machine := machine.cpu.delay
  stored? machine
    | .setDelay x => some (machine.cpu.get x)
    | .exit => some 0
    | _ => none

def sound : Countdown where
  timer machine := machine.sound.timer
  stored? machine
    | .setSound x => some (machine.cpu.get x)
    | _ => none

/-- The timer as a part of the machine that goes down in a tick. A load puts a new one in. -/
def aspect (countdown : Countdown) : Aspect Timer where
  view := countdown.timer
  tick := Timer.tick
  load _ := { }

def remaining (countdown : Countdown) (machine : Machine) : UInt8 :=
  (countdown.timer machine).remaining

/-- Only instructions that store a value, ticks and loads change the timer. -/
structure Lawful (countdown : Countdown) : Prop where
  execute : ∀ (machine : Machine) instruction,
    countdown.remaining (machine.execute instruction).state =
      (countdown.stored? machine instruction).getD (countdown.remaining machine)
  timer_jump : ∀ (machine : Machine) address,
    countdown.timer (machine.onCpu (·.jump address)) = countdown.timer machine
  stored_jump : ∀ (machine : Machine) address instruction,
    countdown.stored? (machine.onCpu (·.jump address)) instruction =
      countdown.stored? machine instruction
  aspect : countdown.aspect.Lawful

theorem delay_execute (machine : Machine) (instruction : Instruction) :
    delay.remaining (machine.execute instruction).state =
      (delay.stored? machine instruction).getD (delay.remaining machine) := by
  cases hkeeps : instruction.keepsContext with
  | true =>
    have hnone : delay.stored? machine instruction = none := by
      cases instruction with
      | setDelay _ | exit => cases hkeeps
      | _ => rfl
    rw [hnone, Option.getD_none]
    exact congrArg (·.2.2.remaining) (machine.context_execute hkeeps)
  | false =>
    cases instruction with
    | setDelay x | exit => rfl
    | call target =>
      simp only [Machine.execute, Machine.call]
      cases machine.cpu.stack.push? machine.cpu.counter <;> rfl
    | returnFromCall =>
      simp only [Machine.execute, Machine.returnFromCall]
      cases machine.cpu.stack.pop? <;> rfl
    | _ => cases hkeeps

theorem sound_execute (machine : Machine) (instruction : Instruction) :
    sound.remaining (machine.execute instruction).state =
      (sound.stored? machine instruction).getD (sound.remaining machine) := by
  simp only [remaining, sound, Machine.sound_execute]
  cases instruction with
  | loadPattern => simp only [Machine.soundAfter, Sound.loadPattern, Sound.timer_setVoice]; rfl
  | setPitch x => simp only [Machine.soundAfter, Sound.setPitch, Sound.timer_setVoice]; rfl
  | _ => rfl

theorem lawful_delay : delay.Lawful where
  execute := delay_execute
  timer_jump _ _ := rfl
  stored_jump _ _ instruction := by cases instruction <;> rfl
  aspect.tick _ := rfl
  aspect.poll _ := rfl
  aspect.perform console call hruns := by
    cases call with
    | step | frame _ => cases hruns
    | load image =>
      obtain ⟨hloads, hsame⟩ | ⟨hloads, memory, hloaded⟩ := console.perform_load_cases image
      · rw [hloads, hsame]
        rfl
      · rw [hloads, hloaded]
        rfl
    | _ => rfl

theorem lawful_sound : sound.Lawful where
  execute := sound_execute
  timer_jump _ _ := rfl
  stored_jump _ _ instruction := by cases instruction <;> rfl
  aspect.tick machine := by
    show machine.sound.tick.timer = machine.sound.timer.tick
    rw [Sound.tick_eq]
  aspect.poll _ := rfl
  aspect.perform console call hruns := by
    cases call with
    | step | frame _ => cases hruns
    | load image =>
      obtain ⟨hloads, hsame⟩ | ⟨hloads, memory, hloaded⟩ := console.perform_load_cases image
      · rw [hloads, hsame]
        rfl
      · rw [hloads, hloaded]
        rfl
    | configure configuration => exact Sound.timer_setVoice _ _
    | output count sampleRate => exact Sound.timer_output _ _ _
    | _ => rfl

/-- The value that a moment stores. A load stores zero. -/
def storedAt? (countdown : Countdown) : Moment → Option UInt8
  | .executed machine => countdown.stored? machine machine.next
  | .ticked => none
  | .loaded => some 0

/-- Nothing is stored in these moments. -/
def Quiet (countdown : Countdown) (moments : List Moment) : Prop :=
  ∀ moment ∈ moments, countdown.storedAt? moment = none

instance (countdown : Countdown) (moments : List Moment) : Decidable (countdown.Quiet moments) :=
  inferInstanceAs (Decidable (∀ moment ∈ moments, countdown.storedAt? moment = none))

/-- The value that was stored last, or the initial one if none was, less the ticks since. -/
def Reads (countdown : Countdown) (initial : UInt8) (moments : List Moment) (value : UInt8) :
    Prop :=
  (countdown.Quiet moments ∧ value.toNat = initial.toNat - moments.countP Moment.isTick) ∨
    ∃ earlier moment later stored, moments = earlier ++ moment :: later ∧
      countdown.storedAt? moment = some stored ∧ countdown.Quiet later ∧
      value.toNat = stored.toNat - later.countP Moment.isTick

variable {countdown : Countdown}

theorem quiet_append_iff {earlier later : List Moment} :
    countdown.Quiet (earlier ++ later) ↔ countdown.Quiet earlier ∧ countdown.Quiet later :=
  List.forall_mem_append

theorem Lawful.remaining_step (lawful : countdown.Lawful) (machine : Machine) :
    countdown.remaining machine.step.state =
      (countdown.stored? machine machine.next).getD (countdown.remaining machine) := by
  have htimer : countdown.timer machine.fetched = countdown.timer machine :=
    lawful.timer_jump machine _
  have hstored : countdown.stored? machine.fetched machine.next =
      countdown.stored? machine machine.next := lawful.stored_jump machine _ _
  have hexecute := lawful.execute machine.fetched machine.next
  rw [hstored, remaining, remaining, htimer] at hexecute
  rw [remaining, Machine.state_step countdown.timer lawful.timer_jump]
  exact hexecute

/-- What one moment does to the timer. -/
theorem Lawful.leads_cons (lawful : countdown.Lawful) {start stop : Timer} {moment : Moment}
    {rest : List Moment} (h : countdown.aspect.Leads start (moment :: rest) stop) :
    ∃ next : Timer, countdown.aspect.Leads next rest stop ∧
      (countdown.storedAt? moment = some next.remaining ∨
        (countdown.storedAt? moment = none ∧
          next.remaining.toNat = start.remaining.toNat - [moment].countP Moment.isTick)) := by
  cases moment with
  | executed machine =>
    obtain ⟨hstart, hrest⟩ := h
    have hstep := lawful.remaining_step machine
    refine ⟨_, hrest, ?_⟩
    rw [storedAt?]
    cases hstored : countdown.stored? machine machine.next with
    | none =>
      rw [hstored] at hstep
      exact .inr ⟨rfl, by rw [← hstart]; exact congrArg UInt8.toNat hstep⟩
    | some stored =>
      rw [hstored] at hstep
      exact .inl (congrArg some hstep.symm)
  | ticked => exact ⟨_, h, .inr ⟨rfl, start.toNat_tick⟩⟩
  | loaded => exact ⟨_, h, .inl rfl⟩

/-- At the end of any moments the timer reads what was stored last less the ticks since. -/
theorem Lawful.reads (lawful : countdown.Lawful) {start stop : Timer} {moments : List Moment}
    (h : countdown.aspect.Leads start moments stop) :
    countdown.Reads start.remaining moments stop.remaining := by
  induction moments generalizing start with
  | nil =>
    cases h
    exact .inl ⟨by simp [Quiet], rfl⟩
  | cons moment rest ih =>
    obtain ⟨next, hrest, hmoment⟩ := lawful.leads_cons h
    -- A store in the rest is the last one. Without any, this moment may be it.
    rcases ih hrest with ⟨hquiet, hstop⟩ | ⟨earlier, last, later, stored, rfl, hlast⟩
    · rcases hmoment with hstored | ⟨hnone, hnext⟩
      · exact .inr ⟨[], moment, rest, _, rfl, hstored, hquiet, hstop⟩
      · refine .inl ⟨List.forall_mem_cons.mpr ⟨hnone, hquiet⟩, ?_⟩
        rw [← List.singleton_append, List.countP_append, ← Nat.sub_sub, ← hnext]
        exact hstop
    · exact .inr ⟨moment :: earlier, last, later, stored, rfl, hlast⟩

/-- Where nothing is stored a timer goes down by one in each tick, and stops at zero. -/
theorem Lawful.remaining_of_quiet (lawful : countdown.Lawful) {start stop : Timer}
    {moments : List Moment} (h : countdown.aspect.Leads start moments stop)
    (hquiet : countdown.Quiet moments) :
    stop.remaining.toNat = start.remaining.toNat - moments.countP Moment.isTick := by
  rcases lawful.reads h with ⟨-, hstop⟩ | ⟨earlier, moment, later, stored, rfl, hstored, -⟩
  · exact hstop
  · rw [hquiet moment (List.mem_append_right _ List.mem_cons_self)] at hstored
    cases hstored

end Countdown

namespace Console

theorem countP_isTick_map_executed (machines : List Machine) :
    (machines.map Moment.executed).countP Moment.isTick = 0 := by
  rw [List.countP_eq_zero]
  intro moment hmoment
  obtain ⟨machine, -, rfl⟩ := List.mem_map.mp hmoment
  simp [Moment.isTick]

/-- The reports of the frames of a history. -/
def frameReports (calls : List Call) (console : Console) : List (Except Fault FrameReport) :=
  (answers calls console).filterMap fun
    | .reported report => some report
    | _ => none

/-- Each frame of a history makes exactly one tick. -/
def TicksOnce : List Call → Console → Prop
  | [], _ => True
  | call :: calls, console =>
    (∀ nanoseconds, call = .frame nanoseconds → console.ticksMade nanoseconds = 1) ∧
      TicksOnce calls (console.perform call)

/-- The first frames report a beep, as many as the count says, and no other frame does. -/
def BeepsFor (count : Nat) (reports : List (Except Fault FrameReport)) : Prop :=
  ∀ (i : Nat) (report : Except Fault FrameReport), reports[i]? = some report →
    ∃ changed, report = .ok { changed, beeping := decide (i < count) }

theorem beepsFor_cons {count : Nat} {changed : Bool}
    {reports : List (Except Fault FrameReport)} (h : BeepsFor (count - 1) reports) :
    BeepsFor count (.ok { changed, beeping := decide (0 < count) } :: reports) := by
  intro i report hreport
  cases i with
  | zero =>
    cases hreport
    exact ⟨changed, rfl⟩
  | succ i =>
    obtain ⟨later, rfl⟩ := h i report hreport
    exact ⟨later, by simp only [Nat.lt_sub_iff_add_lt]⟩

theorem frameReports_frame (console : Console) (nanoseconds : Nat) (calls : List Call) :
    frameReports (.frame nanoseconds :: calls) console =
      (console.runFrame nanoseconds).report ::
        frameReports calls (console.perform (.frame nanoseconds)) := rfl

theorem frameReports_of_not_frame {call : Call} (h : ∀ nanoseconds, call ≠ .frame nanoseconds)
    (console : Console) (calls : List Call) :
    frameReports (call :: calls) console = frameReports calls (console.perform call) := by
  cases call with
  | frame nanoseconds => exact absurd rfl (h nanoseconds)
  | load image =>
    rw [frameReports, answers, answer]
    cases console.load image <;> rfl
  | _ => rfl

theorem countP_isTick_callMoments {call : Call} (h : ∀ nanoseconds, call ≠ .frame nanoseconds)
    (console : Console) : (console.callMoments call).countP Moment.isTick = 0 := by
  rw [callMoments, List.countP_append, countP_isTick_map_executed]
  cases call with
  | frame nanoseconds => exact absurd rfl (h nanoseconds)
  | load image =>
    rw [closingMoments]
    split <;> rfl
  | _ => rfl

/-- A frame with one tick succeeds, and reports the sound as its cycles have left it. -/
theorem exists_done_of_ticksMade {console : Console} {nanoseconds : Nat}
    (h : console.ticksMade nanoseconds = 1) :
    ∃ next changed, console.frameCycles nanoseconds = .done next ∧
      (console.runFrame nanoseconds).report =
        .ok { changed, beeping := next.machine.sound.isOn } ∧
      Countdown.sound.timer (console.perform (.frame nanoseconds)).machine =
        (Countdown.sound.timer next.machine).tick := by
  rw [perform, runFrame_eq]
  rw [ticksMade] at h
  cases hcycles : console.frameCycles nanoseconds with
  | fault reason left =>
    rw [hcycles] at h
    cases h
  | done next =>
    rw [hcycles] at h
    have hpoll : Countdown.sound.timer
        (next.finishFrame (Clock.seconds nanoseconds)).console.machine =
        Countdown.sound.timer (runTicks (next.ticksDue nanoseconds)
          (next.earnTicks (Clock.seconds nanoseconds))).machine :=
      Countdown.lawful_sound.aspect.poll _
    refine ⟨next, _, rfl, rfl, ?_⟩
    simp only at h
    rw [hpoll, h]
    exact Countdown.lawful_sound.aspect.tick next.machine

/-- What is left in the sound timer after the cycles of a frame is the number of frames that
report a beep, if it is so with what is left after the tick. -/
theorem beepsFor_frame {console next : Console} {nanoseconds count : Nat} {calls : List Call}
    (hticks : console.ticksMade nanoseconds = 1)
    (hcycles : console.frameCycles nanoseconds = .done next)
    (hcount : (Countdown.sound.remaining next.machine).toNat = count)
    (hrest : BeepsFor
      (Countdown.sound.remaining (console.perform (.frame nanoseconds)).machine).toNat
      (frameReports calls (console.perform (.frame nanoseconds)))) :
    BeepsFor count (frameReports (.frame nanoseconds :: calls) console) := by
  obtain ⟨_, changed, hdone, hreport, htimer⟩ := exists_done_of_ticksMade hticks
  cases hcycles.symm.trans hdone
  have hon : next.machine.sound.isOn = decide (0 < count) := by
    rw [← hcount]
    exact next.machine.sound.timer.isRunning_eq_decide
  have hleft : (Countdown.sound.remaining (console.perform (.frame nanoseconds)).machine).toNat =
      count - 1 := by
    rw [← hcount, Countdown.remaining, htimer, Timer.toNat_tick]
    rfl
  rw [hleft] at hrest
  rw [frameReports_frame, hreport, hon]
  exact beepsFor_cons hrest

/-- Where nothing is stored in the sound timer, as many frames report a beep as it holds. -/
theorem beepsFor_of_quiet {calls : List Call} {console : Console}
    (hticks : TicksOnce calls console)
    (hquiet : Countdown.sound.Quiet (moments (calls.map .call) console)) :
    BeepsFor (Countdown.sound.remaining console.machine).toNat (frameReports calls console) := by
  induction calls generalizing console with
  | nil => exact fun i report hreport => nomatch hreport
  | cons call calls ih =>
    obtain ⟨honce, hlater⟩ := hticks
    obtain ⟨hcall, hcalls⟩ := Countdown.quiet_append_iff.mp hquiet
    have hrest := ih hlater hcalls
    by_cases hframe : ∃ nanoseconds, call = .frame nanoseconds
    · obtain ⟨nanoseconds, rfl⟩ := hframe
      have htick := honce nanoseconds rfl
      obtain ⟨next, -, hcycles, -⟩ := exists_done_of_ticksMade htick
      have hsame := Countdown.lawful_sound.remaining_of_quiet
        (Countdown.sound.aspect.leads_frameCycles console nanoseconds)
        (Countdown.quiet_append_iff.mp hcall).1
      rw [countP_isTick_map_executed, hcycles] at hsame
      exact beepsFor_frame htick hcycles hsame hrest
    · rw [not_exists] at hframe
      have hsame : (Countdown.sound.remaining (console.perform call).machine).toNat =
          (Countdown.sound.remaining console.machine).toNat -
            (console.callMoments call).countP Moment.isTick :=
        Countdown.lawful_sound.remaining_of_quiet
          (Countdown.lawful_sound.aspect.leads_perform console call) hcall
      rw [countP_isTick_callMoments hframe, Nat.sub_zero] at hsame
      rw [frameReports_of_not_frame hframe, ← hsame]
      exact hrest

/-- A value that a frame stores last in the sound timer is the number of frames that report a
beep, this one first. -/
theorem beepsFor_of_setSound {console : Console} {nanoseconds : Nat} {calls : List Call}
    {before after : List Machine} {machine : Machine} {x : Register}
    (hticks : TicksOnce (.frame nanoseconds :: calls) console)
    (hsplit : executed (console.callPoints (.frame nanoseconds)) = before ++ machine :: after)
    (hnext : machine.next = .setSound x)
    (hquiet : Countdown.sound.Quiet (after.map .executed ++
      moments (calls.map .call) (console.perform (.frame nanoseconds)))) :
    BeepsFor (machine.cpu.get x).toNat (frameReports (.frame nanoseconds :: calls) console) := by
  obtain ⟨honce, hlater⟩ := hticks
  obtain ⟨hafter, hcalls⟩ := Countdown.quiet_append_iff.mp hquiet
  have htick := honce nanoseconds rfl
  obtain ⟨next, -, hcycles, -⟩ := exists_done_of_ticksMade htick
  have hleads := Countdown.sound.aspect.leads_frameCycles console nanoseconds
  rw [hsplit, hcycles, List.map_append, List.map_cons, Aspect.leads_append_iff] at hleads
  obtain ⟨_, -, hlast⟩ := hleads
  obtain ⟨stored, hleads, hmoment⟩ := Countdown.lawful_sound.leads_cons hlast
  have hvalue : Countdown.sound.storedAt? (.executed machine) = some (machine.cpu.get x) := by
    rw [Countdown.storedAt?, hnext]
    rfl
  have hstored : stored.remaining = machine.cpu.get x := by
    rw [hvalue] at hmoment
    rcases hmoment with hsome | ⟨hnone, -⟩
    · exact (Option.some.inj hsome).symm
    · cases hnone
  -- No tick comes between the store and the end of the cycles, where the beep is reported.
  have hsame := Countdown.lawful_sound.remaining_of_quiet hleads hafter
  rw [countP_isTick_map_executed, hstored] at hsame
  exact beepsFor_frame htick hcycles hsame (beepsFor_of_quiet hlater hcalls)

theorem step_of_readDelay {machine : Machine} {x : Register} (hnext : machine.next = .readDelay x) :
    ∃ after, machine.step = .done after ∧
      after.cpu.get x = Countdown.delay.remaining machine := by
  rw [Machine.step_eq, hnext]
  refine ⟨_, rfl, ?_⟩
  simp only [Machine.onCpu, Processor.get, Processor.set, Fin.getElem_fin, Vector.getElem_set_self]
  rfl

/-- Wherever an instruction reads the delay timer, it gets what was stored last less the ticks
since. -/
theorem reads_of_readDelay {console : Console} {turns : List Turn} {earlier later : List Moment}
    {machine : Machine} {x : Register}
    (hsplit : moments turns console = earlier ++ .executed machine :: later)
    (hnext : machine.next = .readDelay x) :
    ∃ after, machine.step = .done after ∧
      Countdown.delay.Reads (Countdown.delay.remaining console.machine) earlier
        (after.cpu.get x) := by
  have hleads := Countdown.lawful_delay.aspect.leads_takeAll turns console
  rw [hsplit, Aspect.leads_append_iff] at hleads
  obtain ⟨_, hearlier, rfl, -⟩ := hleads
  obtain ⟨after, hstep, hvalue⟩ := step_of_readDelay hnext
  refine ⟨after, hstep, ?_⟩
  rw [hvalue]
  exact Countdown.lawful_delay.reads hearlier

/-- After any history each timer holds the value that was stored in it last, less the ticks since.
So much is read from the delay timer. A value stored in the sound timer is the number of frames
that report a beep, from the one that stores it on, if each makes one tick and nothing else is
stored after it. -/
theorem timers_count_ticks (console : Console) :
    (∀ turns,
      Countdown.delay.Reads (Countdown.delay.remaining console.machine) (moments turns console)
          (Countdown.delay.remaining (console.takeAll turns).machine) ∧
        Countdown.sound.Reads (Countdown.sound.remaining console.machine) (moments turns console)
          (Countdown.sound.remaining (console.takeAll turns).machine)) ∧
    (∀ turns earlier machine later x,
      moments turns console = earlier ++ .executed machine :: later →
        machine.next = .readDelay x →
          ∃ after, machine.step = .done after ∧
            Countdown.delay.Reads (Countdown.delay.remaining console.machine) earlier
              (after.cpu.get x)) ∧
    ∀ nanoseconds calls before machine after x,
      TicksOnce (.frame nanoseconds :: calls) console →
        executed (console.callPoints (.frame nanoseconds)) = before ++ machine :: after →
          machine.next = .setSound x →
            Countdown.sound.Quiet (after.map .executed ++
              moments (calls.map .call) (console.perform (.frame nanoseconds))) →
              BeepsFor (machine.cpu.get x).toNat
                (frameReports (.frame nanoseconds :: calls) console) := by
  refine ⟨fun turns => ⟨?_, ?_⟩, ?_, ?_⟩
  · exact Countdown.lawful_delay.reads (Countdown.lawful_delay.aspect.leads_takeAll turns console)
  · exact Countdown.lawful_sound.reads (Countdown.lawful_sound.aspect.leads_takeAll turns console)
  · intro turns earlier machine later x
    exact reads_of_readDelay
  · intro nanoseconds calls before machine after x
    exact beepsFor_of_setSound

/-- Puts two into both timers and then reads the delay timer over and over, with three cycles in
a frame. -/
def countedDown : Console :=
  (ofImage [0x60, 0x02, 0xF0, 0x18, 0xF0, 0x15, 0xF1, 0x07, 0x12, 0x06]).setTickrate 3

/-- A frame, and a tick of its own after it. -/
def twoTicks : List Turn :=
  [.call (.frame Clock.frame), .tick]

def threeFrames : List Call :=
  List.replicate 3 (.frame Clock.frame)

/-- After two ticks the program reads zero, and the first two of three frames report a beep. -/
theorem timers_count_ticks_countedDown :
    (∃ after, (countedDown.takeAll twoTicks).machine.step = .done after ∧
      after.cpu.get 1 = 0 ∧ Countdown.delay.Reads 0 (moments twoTicks countedDown) 0) ∧
      (frameReports threeFrames countedDown).length = 3 ∧
      BeepsFor 2 (frameReports threeFrames countedDown) := by
  obtain ⟨-, hreads, hbeeps⟩ := timers_count_ticks countedDown
  refine ⟨?_, rfl, ?_⟩
  · obtain ⟨hfree, hnext, hvalue⟩ : (countedDown.takeAll twoTicks).isStalled = false ∧
        (countedDown.takeAll twoTicks).machine.next = .readDelay 1 ∧
        (countedDown.takeAll twoTicks).machine.step.state.cpu.get 1 = 0 := by
      decide +kernel
    have hinitial : Countdown.delay.remaining countedDown.machine = 0 := by decide +kernel
    have hsplit := moments_append twoTicks [.call .step] countedDown
    rw [moments_step hfree] at hsplit
    obtain ⟨after, hstep, hreading⟩ := hreads _ _ _ _ _ hsplit hnext
    rw [hstep] at hvalue
    rw [hinitial, show after.cpu.get 1 = 0 from hvalue] at hreading
    exact ⟨after, hstep, hvalue, hreading⟩
  · have hmade : ∀ k < 3,
        (countedDown.performAll (threeFrames.take k)).ticksMade Clock.frame = 1 := by
      decide +kernel
    have hticks : TicksOnce threeFrames countedDown := by
      refine ⟨?_, ?_, ?_, trivial⟩
      · rintro _ ⟨⟩
        exact hmade 0 (by omega)
      · rintro _ ⟨⟩
        exact hmade 1 (by omega)
      · rintro _ ⟨⟩
        exact hmade 2 (by omega)
    have hstored : ((executed (countedDown.callPoints (.frame Clock.frame)))[1]?.map
        fun machine => (machine.next, machine.cpu.get 0)) = some (.setSound 0, 2) := by
      decide +kernel
    have hquiet : Countdown.sound.Quiet
        (((executed (countedDown.callPoints (.frame Clock.frame))).drop 2).map .executed ++
          moments (threeFrames.tail.map .call) (countedDown.perform (.frame Clock.frame))) := by
      decide +kernel
    obtain ⟨machine, hmachine, hfacts⟩ := Option.map_eq_some_iff.mp hstored
    obtain ⟨hnext, hvalue⟩ := Prod.mk.inj hfacts
    obtain ⟨hlength, rfl⟩ := List.getElem?_eq_some_iff.mp hmachine
    have hsplit := List.take_append_drop 1 (executed (countedDown.callPoints (.frame Clock.frame)))
    rw [← List.getElem_cons_drop hlength] at hsplit
    have hbeep := hbeeps _ _ _ _ _ _ hticks hsplit.symm hnext hquiet
    rwa [hvalue] at hbeep

end Console

end ChipEight
