import ChipEight.Catalogue.Document
import ChipEight.CommandLine.Arguments
import ChipEight.Console.Journal
import ChipEight.Keyboard
import ChipEight.Processor.Text
import ChipEight.Screen.Text

/-!
A request carried out: what is printed, which notes are taken, and how it ends. Files are read
through a function, so that a run is a value.
-/

namespace ChipEight.CommandLine

/-- What a run could not do, and why if something else failed first. -/
structure Failure where
  what : String
  cause : Option String := none
  deriving DecidableEq, Repr

/-- The message as lines. -/
def Failure.lines (failure : Failure) : List String :=
  ("Error: " ++ failure.what) ::
    match failure.cause with
    | some cause => ["", "Caused by:", "    " ++ cause]
    | none => []

/-- Every line with its end. -/
def printLines (lines : List String) : String :=
  String.join (lines.map (· ++ "\n"))

structure Report where
  output : String := ""
  log : Log
  failure : Option Failure := none
  deriving DecidableEq, Repr

namespace Report

def exitCode (report : Report) : Nat :=
  if report.failure.isSome then 1 else 0

/-- What goes to the error stream. -/
def diagnostics (report : Report) : String :=
  printLines <| report.log.lines ++
    match report.failure with
    | some failure => failure.lines
    | none => []

end Report

/-- The catalogue that a request names, if it can be read, and the notes on it. -/
def openCatalogue (read : FileReader) (request : Request) : Option Catalogue × List Note :=
  match request.catalogue with
  | none => (none, [])
  | some directory =>
    match Catalogue.ofDirectory read directory with
    | .ok catalogue =>
      (some catalogue, [.catalogueRead catalogue.programs.length catalogue.platforms.length
        catalogue.index.length])
    | .error reason => (none, [.catalogueMissing reason.message])

/-- A platform that is asked for wins over the catalogue, and that over the extension. -/
def chooseConfiguration (request : Request) (catalogue : Option Catalogue)
    (image : List UInt8) : Configuration × List Note :=
  let extension := Path.extension? request.program
  match request.platform, catalogue with
  | some platform, _ => (platform.configuration, [])
  | none, some catalogue =>
    let digest := Digest.sha1 image
    let resolution := catalogue.resolveDigest digest extension
    (resolution.configuration,
      .imageLookedUp digest (catalogue.image? digest).isSome :: resolution.notes)
  | none, none => ((resolve extension none fun _ => none).configuration, [])

/-- What the catalogue knows about an image, or at least the digest of the image. -/
def describe (catalogue : Option Catalogue) (image : List UInt8) : String :=
  let digest := Digest.sha1 image
  match catalogue with
  | some catalogue =>
    let legend := ((catalogue.image? digest).bind ImageInfo.legend?).toList
    printLines ((catalogue.text digest ++ "\n") :: legend)
  | none => printLines ["SHA-1 " ++ digest ++ "\n"]

/-- Presses the keys under some characters, up to the first with no key under it. -/
def holdKeys (console : Console) : List Char → Except Char Console
  | [] => .ok console
  | c :: rest =>
    match Keyboard.key? c with
    | some key => holdKeys (console.press key) rest
    | none => .error c

/-- A run of frames: the console and the number of frames with sound, or the number of the
frame that failed. -/
structure Played where
  result : Except (Nat × Fault) (Console × Nat)
  log : Log

/-- Plays `count` frames, the first of which has the number `number`. -/
def play : Nat → Nat → Nat → Console → Log → Played
  | 0, _, beeping, console, log => { result := .ok (console, beeping), log }
  | count + 1, number, beeping, console, log =>
    let (frame, log) := console.runFrameNoted Clock.frame log
    match frame.report with
    | .ok report =>
      play count (number + 1) (if report.beeping then beeping + 1 else beeping) frame.console log
    | .error reason => { result := .error (number, reason), log }

/-- The screen, the registers and the count of frames. -/
def summary (request : Request) (console : Console) (beeping : Nat) : String :=
  console.machine.screen.text ++
    printLines [console.machine.cpu.text,
      "Frames: " ++ toString request.frames.toNat ++ ", beeping: " ++ toString beeping]

/-- Runs the program for as many frames as asked for and looks ahead. -/
def runFrames (request : Request) (console : Console) (report : Report) : Report :=
  let played := play request.frames.toNat 0 0 console report.log
  match played.result with
  | .error (number, reason) =>
    { report with
      log := played.log
      failure := some { what := "frame " ++ toString number, cause := some reason.message } }
  | .ok (console, beeping) =>
    let count := request.peek.getD 0
    { report with
      output := report.output ++ summary request console beeping ++
        printLines ((console.peek count).map Entry.text)
      log := Console.foretellNoted count console.unstalled played.log }

/-- Lists or runs the program of a console. -/
def runConsole (request : Request) (console : Console) (report : Report) : Report :=
  if request.list then
    { report with
      output := report.output ++ printLines (console.machine.memory.listing.map Entry.text) }
  else
    match holdKeys console request.hold.toList with
    | .error c =>
      { report with
        failure := some { what := "no keypad key under '" ++ String.ofList [c] ++ "'" } }
    | .ok console => runFrames request console report

/-- Runs a program that was read. The seed serves if the request has none of its own. -/
def runImage (request : Request) (read : FileReader) (seed : UInt64) (image : List UInt8) :
    Report :=
  let (catalogue, catalogueNotes) := openCatalogue read request
  let (configuration, configurationNotes) := chooseConfiguration request catalogue image
  let setup : Setup := {
    image := some image
    configuration := some configuration
    tickrate := request.tickrate
    seed := request.seed.getD seed }
  let log : Log := { limit := request.logLevel }
  let log := log.record (catalogueNotes ++ configurationNotes ++ setup.notes)
  match setup.build with
  | .error reason => { log, failure := some { what := reason.message } }
  | .ok console =>
    runConsole request console {
      output := if request.describe then describe catalogue image else ""
      log := log.record [.programStarted request.program console.configuration.tickrate] }

def run (request : Request) (read : FileReader) (seed : UInt64) : Report :=
  match read request.program with
  | .error reason =>
    { log := { limit := request.logLevel }
      failure := some { what := "reading " ++ request.program, cause := some reason.message } }
  | .ok image => runImage request read seed image

/-- The paths that a run may read. -/
def Request.paths (request : Request) : List String :=
  request.program ::
    match request.catalogue with
    | some directory =>
      [Document.programs, .platforms, .index].map fun document =>
        Path.join directory document.fileName
    | none => []

end ChipEight.CommandLine
