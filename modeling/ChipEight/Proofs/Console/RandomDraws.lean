import ChipEight.Console.Listing
import ChipEight.Proofs.Console.Moment
import ChipEight.Proofs.Console.Residue

/-!
A seed determines an endless stream of bytes, and the random instructions of a machine take them
one by one. Nothing else takes a byte and nothing goes back in the stream: no fault, no restart,
no load, no setting, and no look ahead, which runs on a copy.
-/

namespace ChipEight

/-- The machine of a moment in which a random instruction is executed. -/
def Moment.draw? : Moment → Option Machine
  | executed machine => if machine.next.drawsRandom then some machine else none
  | _ => none

theorem Instruction.exists_random_of_drawsRandom {instruction : Instruction}
    (h : instruction.drawsRandom = true) : ∃ x mask, instruction = .random x mask := by
  cases instruction with
  | random x mask => exact ⟨x, mask, rfl⟩
  | _ => cases h

theorem Moment.drawsRandom_of_draw? {moment : Moment} {machine : Machine}
    (h : moment.draw? = some machine) : machine.next.drawsRandom = true := by
  cases moment with
  | executed other =>
    obtain ⟨hrandom, rfl⟩ : other.next.drawsRandom = true ∧ other = machine := by
      simpa [draw?] using h
    exact hrandom
  | ticked | loaded => cases h

/-- The source from which `count` more bytes were drawn. -/
def RandomSource.skip (source : RandomSource) (count : Nat) : RandomSource :=
  { source with drawn := source.drawn + count }

theorem RandomSource.skip_skip (source : RandomSource) (first second : Nat) :
    (source.skip first).skip second = source.skip (first + second) := by
  rw [skip, skip, skip, Nat.add_assoc]

namespace Machine

/-- Random instructions draw one byte, and no other instruction draws any. -/
theorem random_execute (machine : Machine) (instruction : Instruction) :
    (machine.execute instruction).state.cpu.random =
      machine.cpu.random.skip (if instruction.drawsRandom then 1 else 0) := by
  cases instruction with
  | call target =>
    simp only [execute, call]
    cases machine.cpu.stack.push? machine.cpu.counter <;> rfl
  | returnFromCall =>
    simp only [execute, returnFromCall]
    cases machine.cpu.stack.pop? <;> rfl
  | skip condition =>
    simp only [execute, skipIf, Outcome.state]
    split <;> rfl
  | awaitKey x =>
    simp only [execute, awaitKey, Outcome.state]
    split <;> rfl
  | arithmetic operation x y =>
    show (machine.cpu.compute operation x y).random = _
    rw [Processor.compute_registers]
    rfl
  | loadRange _ _ | loadThrough _ =>
    show (machine.cpu.setAll _ _).random = _
    rw [Processor.setAll_registers]
    rfl
  | saveFlags x => simp only [execute, Outcome.state, onCpu, Processor.saveFlags]; rfl
  | restoreFlags x => simp only [execute, Outcome.state, onCpu, Processor.restoreFlags]; rfl
  | _ => rfl

theorem random_step (machine : Machine) :
    machine.step.state.cpu.random =
      machine.cpu.random.skip (if machine.next.drawsRandom then 1 else 0) := by
  rw [state_step (·.cpu.random) fun _ _ => rfl]
  exact machine.fetched.random_execute machine.next

theorem step_of_random {machine : Machine} {x : Register} {mask : UInt8}
    (hnext : machine.next = .random x mask) :
    ∃ after, machine.step = .done after ∧
      after.cpu.get x = machine.cpu.random.next.1 &&& mask := by
  rw [step_eq, hnext]
  refine ⟨_, rfl, ?_⟩
  simp only [onCpu, Processor.drawRandom, Processor.get, Processor.set, Fin.getElem_fin,
    Vector.getElem_set_self]
  rfl

end Machine

namespace Aspect

/-- The random source as a part of the machine. Neither a tick nor a load changes it. -/
def random : Aspect RandomSource where
  view machine := machine.cpu.random
  tick := id
  load := id

theorem lawful_random : random.Lawful where
  tick _ := rfl
  poll _ := rfl
  perform console call hruns := by
    cases call with
    | step | frame _ => cases hruns
    | load image =>
      obtain ⟨hloads, hsame⟩ | ⟨hloads, memory, hloaded⟩ := console.perform_load_cases image
      · rw [hloads, hsame]
        rfl
      · rw [hloads, hloaded]
        rfl
    | _ => rfl

/-- From one moment to the next the source moves on by the bytes drawn. -/
theorem leads_random {start stop : RandomSource} {moments : List Moment}
    (h : random.Leads start moments stop) :
    stop = start.skip (moments.filterMap Moment.draw?).length ∧
      ∀ k machine, (moments.filterMap Moment.draw?)[k]? = some machine →
        machine.cpu.random = start.skip k := by
  induction moments generalizing start with
  | nil =>
    cases h
    exact ⟨rfl, fun k machine hdraw => nomatch hdraw⟩
  | cons moment moments ih =>
    cases moment with
    | ticked => exact ih h
    | loaded => exact ih h
    | executed machine =>
      obtain ⟨rfl, hrest⟩ := h
      have hstep : random.view machine.step.state =
          (random.view machine).skip (if machine.next.drawsRandom then 1 else 0) :=
        machine.random_step
      rw [hstep] at hrest
      obtain ⟨hstop, hdraws⟩ := ih hrest
      rw [RandomSource.skip_skip] at hstop
      cases hrandom : machine.next.drawsRandom with
      | false =>
        have hnone : (Moment.executed machine).draw? = none := by simp [Moment.draw?, hrandom]
        rw [hrandom] at hstop hdraws
        rw [List.filterMap_cons_none hnone, hstop]
        refine ⟨by simp, fun k other hdraw => ?_⟩
        rw [hdraws k other hdraw]
        simp [RandomSource.skip_skip]
      | true =>
        have hsome : (Moment.executed machine).draw? = some machine := by
          simp [Moment.draw?, hrandom]
        rw [hrandom] at hstop hdraws
        rw [List.filterMap_cons_some hsome, hstop]
        refine ⟨by simp [Nat.add_comm], fun k other hdraw => ?_⟩
        cases k with
        | zero =>
          cases hdraw
          rfl
        | succ k =>
          rw [hdraws k other hdraw, RandomSource.skip_skip]
          simp [Nat.add_comm]

end Aspect

namespace Console

/-- What a host asks for: a turn of the console, or a look ahead. -/
inductive Request where
  | turn (turn : Turn)
  | peek (count : Nat)

/-- The console after a request, and the entries that it lists. A look ahead runs on a copy. -/
def serve (console : Console) : Request → Console × List Entry
  | .turn turn => (console.take turn, [])
  | .peek count => (console, console.peek count)

def serveAll (console : Console) (requests : List Request) : Console :=
  requests.foldl (fun console request => (console.serve request).1) console

/-- The machines of the random instructions that a request executes. -/
def requestDraws (console : Console) : Request → List Machine
  | .turn turn => (console.turnMoments turn).filterMap Moment.draw?
  | .peek _ => []

/-- The machines of all random instructions of a history, as these instructions find them. -/
def draws : List Request → Console → List Machine
  | [], _ => []
  | request :: requests, console =>
    console.requestDraws request ++ draws requests (console.serve request).1

theorem drawsRandom_of_mem_draws {requests : List Request} {console : Console}
    {machine : Machine} (h : machine ∈ draws requests console) :
    machine.next.drawsRandom = true := by
  induction requests generalizing console with
  | nil => cases h
  | cons request requests ih =>
    rw [draws, List.mem_append] at h
    rcases h with hfirst | hlater
    · cases request with
      | turn turn =>
        obtain ⟨moment, -, hdraw⟩ := List.mem_filterMap.mp hfirst
        exact Moment.drawsRandom_of_draw? hdraw
      | peek count => cases hfirst
    · exact ih hlater

theorem random_serveAll (requests : List Request) (console : Console) :
    (console.serveAll requests).machine.cpu.random =
        console.machine.cpu.random.skip (draws requests console).length ∧
      ∀ k machine, (draws requests console)[k]? = some machine →
        machine.cpu.random = console.machine.cpu.random.skip k := by
  induction requests generalizing console with
  | nil => exact ⟨rfl, fun k machine hdraw => nomatch hdraw⟩
  | cons request requests ih =>
    obtain ⟨hlater, hdraws⟩ := ih (console.serve request).1
    have hfirst : (console.serve request).1.machine.cpu.random =
          console.machine.cpu.random.skip (console.requestDraws request).length ∧
        ∀ k machine, (console.requestDraws request)[k]? = some machine →
          machine.cpu.random = console.machine.cpu.random.skip k := by
      cases request with
      | turn turn => exact Aspect.leads_random (Aspect.lawful_random.leads_take console turn)
      | peek count => exact ⟨rfl, fun k machine hdraw => nomatch hdraw⟩
    rw [hfirst.1, RandomSource.skip_skip, ← List.length_append] at hlater
    refine ⟨hlater, fun k machine hdraw => ?_⟩
    rw [draws, List.getElem?_append] at hdraw
    split at hdraw
    · exact hfirst.2 k machine hdraw
    · rw [hdraws _ machine hdraw, hfirst.1, RandomSource.skip_skip]
      congr 1
      omega

/-- The random instructions of a history take the bytes of the stream that the seed determines,
each one the byte whose number is its own, and at the end as many bytes are drawn as there were
random instructions. -/
theorem draws_follow_stream (seed : UInt64) (requests : List Request) :
    (∀ k machine, (draws requests (ofSeed seed))[k]? = some machine →
      ∃ x mask after, machine.next = .random x mask ∧ machine.step = .done after ∧
        after.cpu.get x =
          RandomSource.streamByte (RandomSource.keyOfSeed seed) k &&& mask) ∧
    ((ofSeed seed).serveAll requests).machine.cpu.random =
      { key := RandomSource.keyOfSeed seed, drawn := (draws requests (ofSeed seed)).length } := by
  obtain ⟨hstop, hdraws⟩ := random_serveAll requests (ofSeed seed)
  have hstart (count : Nat) : (ofSeed seed).machine.cpu.random.skip count =
      { key := RandomSource.keyOfSeed seed, drawn := count } :=
    congrArg (RandomSource.mk _) (Nat.zero_add count)
  refine ⟨fun k machine hdraw => ?_, hstop.trans (hstart _)⟩
  have hsource := (hdraws k machine hdraw).trans (hstart k)
  obtain ⟨x, mask, hnext⟩ := Instruction.exists_random_of_drawsRandom
    (drawsRandom_of_mem_draws (List.mem_of_getElem? hdraw))
  obtain ⟨after, hstep, hvalue⟩ := Machine.step_of_random hnext
  refine ⟨x, mask, after, hnext, hstep, ?_⟩
  rw [hvalue, hsource]
  rfl

/-- A load is no random instruction. -/
theorem draws_load {image : List UInt8} (h : image.length ≤ Memory.maxImageLength)
    (requests : List Request) (console : Console) :
    draws (.turn (.call (.load image)) :: requests) console =
      draws requests (holding console image h) := by
  have hnone : console.requestDraws (.turn (.call (.load image))) = [] := by
    simp only [requestDraws, turnMoments, callMoments, closingMoments]
    split <;> rfl
  have hloaded : (console.serve (.turn (.call (.load image)))).1 = holding console image h := by
    rw [serve, take, perform, load_eq_holding console h]
  rw [draws, hnone, hloaded, List.nil_append]

/-- A random byte, and a restart of the program after it. -/
def restartedImage : List UInt8 :=
  [0xC0, 0xFF, 0x00, 0xFD]

/-- What a host asks for after the load. -/
def lookAheadAndStep : List Request :=
  [.turn (.call .step), .peek 2, .turn .tick, .turn (.call .step), .turn (.call (.setTickrate 9)),
    .turn (.call .step)]

/-- Behind the restart and the look ahead the program gets the second byte of the stream. -/
theorem draws_follow_stream_restarted :
    ∃ machine after,
      (draws (.turn (.call (.load restartedImage)) :: lookAheadAndStep) (ofSeed 7))[1]? =
        some machine ∧
      machine.next = .random 0 0xFF ∧ machine.step = .done after ∧
      after.cpu.get 0 = RandomSource.streamByte (RandomSource.keyOfSeed 7) 1 &&& 0xFF := by
  have hloaded : draws (.turn (.call (.load restartedImage)) :: lookAheadAndStep) (ofSeed 7) =
      draws lookAheadAndStep (holding (ofSeed 7) restartedImage (by decide)) :=
    draws_load _ _ _
  have hnexts : (draws lookAheadAndStep (holding (ofSeed 7) restartedImage (by decide))).map
      Machine.next = [.random 0 0xFF, .random 0 0xFF] := by
    decide +kernel
  obtain ⟨hdraws, -⟩ :=
    draws_follow_stream 7 (.turn (.call (.load restartedImage)) :: lookAheadAndStep)
  rw [hloaded] at hdraws ⊢
  have hsecond := congrArg (·[1]?) hnexts
  simp only [List.getElem?_map] at hsecond
  obtain ⟨machine, hmachine, hnext⟩ := Option.map_eq_some_iff.mp hsecond
  obtain ⟨x, mask, after, hfound, hstep, hvalue⟩ := hdraws 1 machine hmachine
  rw [hnext] at hfound
  cases hfound
  exact ⟨machine, after, hmachine, hnext, hstep, hvalue⟩

end Console

end ChipEight
