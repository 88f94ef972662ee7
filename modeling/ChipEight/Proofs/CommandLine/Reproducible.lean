import ChipEight.CommandLine.Run
import ChipEight.Proofs.Console.Residue

/-!
What a run shows of its seed. Two runs of one request on consoles that differ in their random
sources print the same and end in the same way, as long as none of the instructions that are
executed, in the frames or by the look ahead, draws a random byte.
-/

namespace ChipEight

namespace Disguise

variable {disguise : Disguise}

/-- None of the instructions sees through the disguise. -/
structure HidesFrom (disguise : Disguise) (instructions : List Instruction) : Prop where
  keepsDialects : disguise.KeepsDialects
  random : ∀ instruction ∈ instructions, instruction.drawsRandom = true →
    ∀ source, disguise.random source = source

theorem HidesFrom.mono {instructions others : List Instruction}
    (h : disguise.HidesFrom instructions) (hsubset : others ⊆ instructions) :
    disguise.HidesFrom others :=
  ⟨h.keepsDialects, fun instruction hmem => h.random instruction (hsubset hmem)⟩

theorem hidesFrom_nothing (instructions : List Instruction) :
    ({ } : Disguise).HidesFrom instructions :=
  ⟨⟨rfl, rfl⟩, fun _ _ _ _ => rfl⟩

theorem hidesFrom_ofRandom (random : RandomSource) {instructions : List Instruction}
    (h : ∀ instruction ∈ instructions, instruction.drawsRandom = false) :
    (ofRandom random).HidesFrom instructions :=
  ⟨keepsDialects_ofRandom random, fun instruction hmem hdraws =>
    absurd (h instruction hmem) (by simp [hdraws])⟩

theorem HidesFrom.runFrame {console : Console} {nanoseconds : Nat}
    (h : disguise.HidesFrom
      ((Console.executions [.frame nanoseconds] console).map Machine.next)) :
    (disguise.console console).runFrame nanoseconds =
      { console := disguise.console (console.runFrame nanoseconds).console
        report := (console.runFrame nanoseconds).report } := by
  refine disguise.runFrame_console fun point hpoint => ?_
  refine disguise.hidesAt_of_keepsDialects h.keepsDialects fun hfree => ?_
  have hexecuted : point.machine ∈ Console.executions [.frame nanoseconds] console :=
    (Console.mem_executions_iff _ _ _).mpr ⟨point, List.mem_append_left _ hpoint, hfree, rfl⟩
  exact h.random _ (List.mem_map_of_mem hexecuted)

theorem HidesFrom.peek {console : Console} {count : Nat}
    (h : disguise.HidesFrom ((console.peek count).map (·.instruction))) :
    (disguise.console console).peek count = console.peek count := by
  have hcopy : (disguise.console console).unstalled = disguise.console console.unstalled := by
    obtain ⟨configured, executed, random⟩ := disguise
    obtain ⟨⟨hconfigured, hexecuted⟩, -⟩ := h
    cases hconfigured
    rfl
  rw [Console.peek, hcopy]
  exact disguise.foretell_console h.keepsDialects fun entry hentry =>
    h.random _ (List.mem_map_of_mem hentry)

theorem apply_console (hkeeps : disguise.KeepsDialects) (setup : Setup) (console : Console) :
    setup.apply (disguise.console console) = disguise.console (setup.apply console) := by
  obtain ⟨configured, executed, random⟩ := disguise
  obtain ⟨hconfigured, hexecuted⟩ := hkeeps
  cases hconfigured
  cases hexecuted
  unfold Setup.apply
  cases setup.configuration <;> cases setup.dialect <;> cases setup.tickrate <;> rfl

theorem machine_ofSeed (dialect : Dialect) (seed seed' : UInt64) :
    Machine.ofSeed dialect seed' =
      (ofRandom (RandomSource.ofSeed seed')).machine (Machine.ofSeed dialect seed) := by
  simp only [Machine.ofSeed, machine, Machine.onCpu, processor, ofRandom, id_eq]

/-- Another seed makes another random source, and nothing else. -/
theorem console_ofSeed (seed seed' : UInt64) :
    Console.ofSeed seed' =
      (ofRandom (RandomSource.ofSeed seed')).console (Console.ofSeed seed) := by
  -- The memories must meet as they are written: to unfold a blank one is too much for the kernel.
  rw [Console.ofSeed, Console.ofSeed, ← configure_console _ (keepsDialects_ofRandom _)]
  simp only [console, ← machine_ofSeed]
  rfl

theorem build_ofRandom (setup : Setup) (seed : UInt64) :
    { setup with seed }.build =
      setup.build.map (ofRandom (RandomSource.ofSeed seed)).console := by
  have hkeeps := keepsDialects_ofRandom (RandomSource.ofSeed seed)
  cases himage : setup.image with
  | none => simp only [Setup.build, himage, Except.map]
  | some image =>
    simp only [Setup.build, himage, console_ofSeed setup.seed seed, load_console _ hkeeps]
    cases (Console.ofSeed setup.seed).load image with
    | error reason => rfl
    | ok console => exact congrArg Except.ok (apply_console hkeeps setup console)

end Disguise

namespace CommandLine

open Disguise

theorem holdKeys_console (disguise : Disguise) (console : Console) (characters : List Char) :
    holdKeys (disguise.console console) characters =
      (holdKeys console characters).map disguise.console := by
  induction characters generalizing console with
  | nil => rfl
  | cons c rest ih =>
    rw [holdKeys, holdKeys]
    cases Keyboard.key? c with
    | none => rfl
    | some key => exact ih (console.press key)

/-- The instructions that a console executes for some frames, up to one that fails, and in a look
ahead after them, which runs on a copy. -/
def executedInFrames (lookAhead : Nat) : Nat → Console → List Instruction
  | 0, console => (console.peek lookAhead).map (·.instruction)
  | count + 1, console =>
    (Console.executions [.frame Clock.frame] console).map Machine.next ++
      match (console.runFrame Clock.frame).report with
      | .ok _ => executedInFrames lookAhead count (console.runFrame Clock.frame).console
      | .error _ => []

/-- The instructions that a console executes for a request. -/
def Request.executedOn (request : Request) (console : Console) : List Instruction :=
  if request.list then []
  else
    match holdKeys console request.hold.toList with
    | .ok console => executedInFrames (request.peek.getD 0) request.frames.toNat console
    | .error _ => []

/-- How the console for an image is set up. -/
def Request.setup (request : Request) (read : FileReader) (seed : UInt64) (image : List UInt8) :
    Setup where
  image := some image
  configuration := some (chooseConfiguration request (openCatalogue read request).1 image).1
  tickrate := request.tickrate
  seed := request.seed.getD seed

/-- The instructions that a run executes. -/
def executed (request : Request) (read : FileReader) (seed : UInt64) : List Instruction :=
  match read request.program with
  | .error _ => []
  | .ok image =>
    match (request.setup read seed image).build with
    | .error _ => []
    | .ok console => request.executedOn console

/-- What is seen of a run from outside, notes apart: what it prints, and how it fails. -/
def Report.shown (report : Report) : String × Option Failure :=
  (report.output, report.failure)

theorem Report.shown_eq_iff {report other : Report} :
    report.shown = other.shown ↔ report.output = other.output ∧ report.failure = other.failure :=
  Prod.ext_iff

section Frames

variable {disguise : Disguise} {console : Console} {lookAhead : Nat}

theorem result_play_of_ok {report : FrameReport}
    (h : (console.runFrame Clock.frame).report = .ok report) (count number beeping : Nat)
    (log : Log) :
    (play (count + 1) number beeping console log).result =
      (play count (number + 1) (if report.beeping then beeping + 1 else beeping)
        (console.runFrame Clock.frame).console
        (console.runFrameNoted Clock.frame log).2).result := by
  rw [← Console.runFrameNoted_fst console Clock.frame log] at h ⊢
  simp only [play, h]

theorem result_play_of_error {reason : Fault}
    (h : (console.runFrame Clock.frame).report = .error reason) (count number beeping : Nat)
    (log : Log) :
    (play (count + 1) number beeping console log).result = .error (number, reason) := by
  rw [← Console.runFrameNoted_fst console Clock.frame log] at h
  simp only [play, h]

/-- Neither the disguise nor the log plays a role in how the frames come out. -/
theorem result_play_console {count : Nat}
    (h : disguise.HidesFrom (executedInFrames lookAhead count console))
    (number beeping : Nat) (log log' : Log) :
    (play count number beeping (disguise.console console) log').result =
      (play count number beeping console log).result.map (Prod.map disguise.console id) := by
  induction count generalizing console number beeping log log' with
  | zero => rfl
  | succ count ih =>
    rw [executedInFrames] at h
    have hframe := (h.mono (List.subset_append_left _ _)).runFrame
    cases hreport : (console.runFrame Clock.frame).report with
    | ok report =>
      rw [hreport] at h hframe
      have hdisguised : ((disguise.console console).runFrame Clock.frame).report = .ok report :=
        congrArg FrameResult.report hframe
      rw [result_play_of_ok hreport, result_play_of_ok hdisguised, hframe]
      exact ih (h.mono (List.subset_append_right _ _)) _ _ _ _
    | error reason =>
      rw [hreport] at hframe
      have hdisguised : ((disguise.console console).runFrame Clock.frame).report =
          .error reason := congrArg FrameResult.report hframe
      rw [result_play_of_error hreport, result_play_of_error hdisguised]
      rfl

theorem hidesFrom_peek_of_play {count : Nat} {left : Console} {sounded : Nat}
    (h : disguise.HidesFrom (executedInFrames lookAhead count console))
    {number beeping : Nat} {log : Log}
    (hplayed : (play count number beeping console log).result = .ok (left, sounded)) :
    disguise.HidesFrom ((left.peek lookAhead).map (·.instruction)) := by
  induction count generalizing console number beeping log with
  | zero =>
    cases hplayed
    exact h
  | succ count ih =>
    rw [executedInFrames] at h
    cases hreport : (console.runFrame Clock.frame).report with
    | ok report =>
      rw [hreport] at h
      rw [result_play_of_ok hreport] at hplayed
      exact ih (h.mono (List.subset_append_right _ _)) hplayed
    | error reason =>
      rw [result_play_of_error hreport] at hplayed
      cases hplayed

theorem shown_runFrames {request : Request} {report report' : Report}
    (h : disguise.HidesFrom
      (executedInFrames (request.peek.getD 0) request.frames.toNat console))
    (hreport : report'.shown = report.shown) :
    (runFrames request (disguise.console console) report').shown =
      (runFrames request console report).shown := by
  obtain ⟨houtput, hfailure⟩ := Report.shown_eq_iff.mp hreport
  have hresult := result_play_console h 0 0 report.log report'.log
  simp only [runFrames, hresult]
  cases hplayed : (play request.frames.toNat 0 0 console report.log).result with
  | error cause => exact congrArg (·, _) houtput
  | ok played =>
    obtain ⟨left, sounded⟩ := played
    have hpeek := (hidesFrom_peek_of_play h hplayed).peek
    have hsummary : summary request (disguise.console left) sounded =
        summary request left sounded := rfl
    simp only [Except.map, Prod.map, Report.shown, id_eq, houtput, hfailure, hpeek, hsummary]

end Frames

section Runs

variable {disguise : Disguise} {request : Request} {console : Console}

theorem shown_runConsole {report report' : Report}
    (h : disguise.HidesFrom (request.executedOn console)) (hreport : report'.shown = report.shown) :
    (runConsole request (disguise.console console) report').shown =
      (runConsole request console report).shown := by
  obtain ⟨houtput, hfailure⟩ := Report.shown_eq_iff.mp hreport
  rw [Request.executedOn] at h
  simp only [runConsole]
  cases hlist : request.list with
  | true =>
    have hlisting : (disguise.console console).machine.memory.listing =
        console.machine.memory.listing := rfl
    simp only [if_true, Report.shown, houtput, hfailure, hlisting]
  | false =>
    simp only [hlist, Bool.false_eq_true, if_false] at h ⊢
    rw [holdKeys_console]
    cases hheld : holdKeys console request.hold.toList with
    | error c => simp only [Except.map, Report.shown, houtput]
    | ok held =>
      rw [hheld] at h
      exact shown_runFrames h hreport

variable {read : FileReader} {seed seed' : UInt64} {catalogue : Option String}

/-- A run depends on the directory of its catalogue only by what is read there. -/
theorem setup_of_openCatalogue
    (hopen : (openCatalogue read { request with catalogue }).1 = (openCatalogue read request).1)
    (image : List UInt8) :
    { request with catalogue }.setup read seed' image =
      { request.setup read seed image with seed := request.seed.getD seed' } := by
  simp only [Request.setup, hopen]
  rfl

theorem shown_runImage_of_error {image : List UInt8} {reason : SetupError}
    (h : (request.setup read seed image).build = .error reason) :
    (runImage request read seed image).shown = ("", some { what := reason.message }) := by
  rw [Request.setup] at h
  simp only [runImage, h]
  rfl

theorem runImage_of_ok {image : List UInt8}
    (h : (request.setup read seed image).build = .ok console) :
    ∃ report : Report, runImage request read seed image = runConsole request console report ∧
      report.shown =
        (if request.describe then describe (openCatalogue read request).1 image else "", none) := by
  rw [Request.setup] at h
  simp only [runImage, h]
  exact ⟨_, rfl, rfl⟩

theorem shown_runImage {image : List UInt8}
    (hopen : (openCatalogue read { request with catalogue }).1 = (openCatalogue read request).1)
    (hbuild : ({ request with catalogue }.setup read seed' image).build =
      (request.setup read seed image).build.map disguise.console)
    (h : ∀ console, (request.setup read seed image).build = .ok console →
      disguise.HidesFrom (request.executedOn console)) :
    (runImage { request with catalogue } read seed' image).shown =
      (runImage request read seed image).shown := by
  cases hresult : (request.setup read seed image).build with
  | error reason =>
    rw [hresult] at hbuild
    rw [shown_runImage_of_error hresult, shown_runImage_of_error hbuild]
  | ok console =>
    rw [hresult] at hbuild
    obtain ⟨report, hrun, hreport⟩ := runImage_of_ok hresult
    obtain ⟨report', hrun', hreport'⟩ := runImage_of_ok hbuild
    rw [hopen] at hreport'
    rw [hrun, hrun']
    exact shown_runConsole (h console hresult) (hreport'.trans hreport.symm)

/-- The difference that the seed makes as a disguise. It is none if the request has a seed of its
own, and any new random source serves where no byte is drawn from it. -/
theorem exists_disguise (setup : Setup) (seed' : UInt64) {instructions : List Instruction}
    (hseed : setup.seed = request.seed.getD seed)
    (hrandom : request.seed.isSome ∨
      ∀ instruction ∈ instructions, instruction.drawsRandom = false) :
    ∃ disguise : Disguise, disguise.HidesFrom instructions ∧
      { setup with seed := request.seed.getD seed' }.build =
        setup.build.map disguise.console := by
  rcases hrandom with hown | hnone
  · obtain ⟨own, hown⟩ := Option.isSome_iff_exists.mp hown
    refine ⟨{ }, hidesFrom_nothing instructions, ?_⟩
    have hsame : request.seed.getD seed' = setup.seed := by rw [hseed, hown]; rfl
    rw [hsame]
    cases setup.build <;> rfl
  · exact ⟨_, hidesFrom_ofRandom _ hnone, build_ofRandom setup _⟩

/-- What a run shows depends on the directory of the catalogue only by what is read there, and on
the seed that serves if the request has none only by the random bytes that are drawn. -/
theorem shown_run (seed' : UInt64)
    (hopen : (openCatalogue read { request with catalogue }).1 = (openCatalogue read request).1)
    (hrandom : request.seed.isSome ∨
      ∀ instruction ∈ executed request read seed, instruction.drawsRandom = false) :
    (run { request with catalogue } read seed').shown = (run request read seed).shown := by
  rw [executed] at hrandom
  simp only [run]
  cases hread : read request.program with
  | error reason => rfl
  | ok image =>
    simp only [hread] at hrandom
    obtain ⟨disguise, hhides, hbuild⟩ :=
      exists_disguise (request.setup read seed image) seed' rfl hrandom
    rw [← setup_of_openCatalogue hopen image] at hbuild
    refine shown_runImage hopen hbuild fun console hconsole => ?_
    simpa only [hconsole] using hhides

end Runs

end CommandLine

end ChipEight
