import ChipEight.Proofs.Catalogue.Opening
import ChipEight.Proofs.CommandLine.Reproducible

/-!
A catalogue that cannot be opened is as good as none. Whatever else is asked for, a run with the
directory of a broken catalogue prints the same and ends with the same code as the run without
one. Only the notes tell them apart.
-/

namespace ChipEight.CommandLine

section Options

variable {request : Request} {directory : String}

/-- All options but that of the catalogue leave the catalogue alone, and take no notice of it. -/
theorem set?_catalogue {name : OptionName} (hname : name ≠ .db) (value : String)
    (catalogue : Option String) :
    { request with catalogue }.set? name value =
      (request.set? name value).map ({ · with catalogue }) := by
  cases name with
  | db => exact absurd rfl hname
  | disasm | info | hold => rfl
  | platform | tickrate | frames | seed | peek | logLevel =>
    simp only [Request.set?, Option.map_map]
    rfl

theorem applyOptions_catalogue {options : List (OptionName × String)}
    (h : ∀ option ∈ options, option.1 ≠ .db) (catalogue : Option String) :
    applyOptions { request with catalogue } options =
      (applyOptions request options).map ({ · with catalogue }) := by
  induction options generalizing request with
  | nil => rfl
  | cons option rest ih =>
    obtain ⟨name, value⟩ := option
    obtain ⟨hname, hrest⟩ := List.forall_mem_cons.mp h
    rw [applyOptions, applyOptions]
    split
    · rfl
    · rw [set?_catalogue hname]
      cases request.set? name value with
      | none => rfl
      | some next => exact ih hrest

/-- The option of the catalogue may stand anywhere among the others. -/
theorem applyOptions_insert {before after : List (OptionName × String)}
    (h : ∀ option ∈ before ++ after, option.1 ≠ .db) (hdirectory : directory ≠ "") :
    applyOptions request (before ++ (.db, directory) :: after) =
      (applyOptions request (before ++ after)).map
        ({ · with catalogue := some directory }) := by
  induction before generalizing request with
  | nil =>
    have honce : after.any (·.1 = .db) = false := by simpa using h
    have hset : request.set? .db directory =
        some { request with catalogue := some directory } := by
      simp [Request.set?, path?, hdirectory]
    rw [List.nil_append, applyOptions, honce, hset]
    exact applyOptions_catalogue h (some directory)
  | cons option rest ih =>
    obtain ⟨name, value⟩ := option
    obtain ⟨hname, hrest⟩ := List.forall_mem_cons.mp h
    have hrepeated : (rest ++ (.db, directory) :: after).any (·.1 = name) =
        (rest ++ after).any (·.1 = name) := by
      simp [hname.symm]
    rw [List.cons_append, List.cons_append, applyOptions, applyOptions, hrepeated]
    split
    · rfl
    · cases request.set? name value with
      | none => rfl
      | some next => exact ih hrest

end Options

/-- The exit code of a run with the given options and what it prints, unless they are refused. -/
def respond (program : String) (options : List (OptionName × String)) (read : FileReader)
    (seed : UInt64) : Except UsageError (Nat × String) :=
  (applyOptions { program } options).map fun request =>
    ((run request read seed).exitCode, (run request read seed).output)

theorem answer_of_shown {report other : Report} (h : report.shown = other.shown) :
    (report.exitCode, report.output) = (other.exitCode, other.output) := by
  obtain ⟨houtput, hfailure⟩ := Report.shown_eq_iff.mp h
  rw [Report.exitCode, Report.exitCode, hfailure, houtput]

theorem catalogue_applyOptions {request result : Request} {options : List (OptionName × String)}
    (h : ∀ option ∈ options, option.1 ≠ .db)
    (hresult : applyOptions request options = .ok result) :
    result.catalogue = request.catalogue := by
  have hsame : applyOptions request options =
      (applyOptions request options).map ({ · with catalogue := request.catalogue }) :=
    applyOptions_catalogue h request.catalogue
  rw [hresult] at hsame
  have hresult : result = { result with catalogue := request.catalogue } := Except.ok.inj hsame
  rw [hresult]

theorem openCatalogue_of_error {read : FileReader} {directory : String} {reason : CatalogueError}
    (hbroken : Catalogue.ofDirectory read directory = .error reason) (request : Request) :
    (openCatalogue read { request with catalogue := some directory }).1 = none := by
  simp only [openCatalogue, hbroken]

/-- A directory holds no catalogue if any of the three documents is broken in it. Then the option
that names it, wherever it stands among the others, changes neither the exit code nor what is
printed, if the seed is given as well or no random instruction is executed. -/
theorem broken_catalogue_as_none (read : FileReader) (directory : String) :
    ((∃ reason, Catalogue.ofDirectory read directory = .error reason) ↔
      ∃ document : Document, document.Broken read directory) ∧
    ∀ (program : String) (before after : List (OptionName × String)) (seed seed' : UInt64),
      directory ≠ "" → (∀ option ∈ before ++ after, option.1 ≠ .db) →
      (∃ reason, Catalogue.ofDirectory read directory = .error reason) →
      (∀ request, applyOptions { program } (before ++ after) = .ok request →
        request.seed.isSome ∨
          ∀ instruction ∈ executed request read seed', instruction.drawsRandom = false) →
      respond program (before ++ (.db, directory) :: after) read seed =
        respond program (before ++ after) read seed' := by
  refine ⟨Catalogue.exists_ofDirectory_eq_error_iff, ?_⟩
  intro program before after seed seed' hdirectory hothers hbroken hrandom
  obtain ⟨reason, hbroken⟩ := hbroken
  rw [respond, respond, applyOptions_insert hothers hdirectory]
  cases hrequest : applyOptions { program } (before ++ after) with
  | error refusal => simp only [Except.map]
  | ok request =>
    have hnone : request.catalogue = none := catalogue_applyOptions hothers hrequest
    have hopen : (openCatalogue read { request with catalogue := some directory }).1 =
        (openCatalogue read request).1 := by
      rw [openCatalogue_of_error hbroken, openCatalogue, hnone]
    have hshown := shown_run seed hopen (hrandom request hrequest)
    simp only [Except.map, answer_of_shown hshown]

/-- Jumps to itself and so never comes to its random instruction. -/
def spinImage : List UInt8 :=
  [0x12, 0x00, 0xC0, 0xFF]

/-- The program beside a directory with an empty list of programs, nothing about platforms, and an
index that is no text. -/
def spinFiles : FileReader := fun path =>
  let files : List (String × List UInt8) := [("spin.ch8", spinImage),
    ("db/programs.json", Document.bytes "[]"), ("db/sha1-hashes.json", [0xFF])]
  match files.lookup path with
  | some content => .ok content
  | none => .error .notFound

def spinOptions : List (OptionName × String) :=
  [(.info, ""), (.tickrate, "3"), (.frames, "2"), (.hold, "q")]

def spinRequest : Request where
  program := "spin.ch8"
  describe := true
  tickrate := some 3
  frames := 2
  hold := "q"
  peek := some 2

def spinConsole : Console :=
  ((Console.holding (Console.ofSeed 0) spinImage (by decide)).configure
    Platform.base.configuration).setTickrate 3

theorem broken_platforms_spin : Document.platforms.Broken spinFiles "db" := by
  have hpath : Document.path "db" .platforms = "db/platforms.json" := by cbv
  refine .unreadable .notFound ?_
  rw [hpath]
  rfl

theorem build_spin : (spinRequest.setup spinFiles 0 spinImage).build = .ok spinConsole := by
  have hextension :
      (resolve (Path.extension? spinRequest.program) none fun _ => none).configuration =
        Platform.base.configuration := by cbv
  have hsetup : spinRequest.setup spinFiles 0 spinImage =
      { image := some spinImage
        configuration := some Platform.base.configuration
        tickrate := some 3
        seed := 0 } := by
    rw [← hextension]
    rfl
  have hload : (Console.ofSeed 0).load spinImage =
      .ok (Console.holding (Console.ofSeed 0) spinImage (by decide)) :=
    Console.load_eq_holding _ _
  simp only [hsetup, Setup.build, hload, Setup.apply, spinConsole]

theorem executed_spin :
    executed spinRequest spinFiles 0 =
      List.replicate 8 (.jump (Instruction.shortAddress 0x200)) := by
  have hread : spinFiles spinRequest.program = .ok spinImage := rfl
  have hexecuted : spinRequest.executedOn spinConsole =
      List.replicate 8 (.jump (Instruction.shortAddress 0x200)) := by decide +kernel
  simp only [executed, hread, build_spin, hexecuted]

/-- Without a seed of its own; the option of the catalogue stands among the others. -/
theorem broken_catalogue_as_none_spin :
    (∃ reason, Catalogue.ofDirectory spinFiles "db" = .error reason) ∧
      executed spinRequest spinFiles 0 =
        List.replicate 8 (.jump (Instruction.shortAddress 0x200)) ∧
      respond "spin.ch8" (spinOptions ++ (.db, "db") :: [(.peek, "2")]) spinFiles 7 =
        respond "spin.ch8" (spinOptions ++ [(.peek, "2")]) spinFiles 0 := by
  obtain ⟨hfails, halike⟩ := broken_catalogue_as_none spinFiles "db"
  have hbroken := hfails.mpr ⟨.platforms, broken_platforms_spin⟩
  refine ⟨hbroken, executed_spin, ?_⟩
  refine halike "spin.ch8" spinOptions [(.peek, "2")] 7 0 (by decide) (by decide) hbroken ?_
  intro request hrequest
  have hparsed : applyOptions { program := "spin.ch8" } (spinOptions ++ [(.peek, "2")]) =
      .ok spinRequest := by cbv
  obtain rfl : spinRequest = request := Except.ok.inj (hparsed.symm.trans hrequest)
  rw [executed_spin]
  exact .inr (by decide)

end ChipEight.CommandLine
