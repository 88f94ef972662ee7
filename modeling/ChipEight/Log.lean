import ChipEight.Configuration
import ChipEight.Fault

/-!
Notes on what happens, each with a level, the component that it comes from, and a text. A log
keeps those that are severe enough.
-/

namespace ChipEight

/-- Levels of notes, the most severe first. -/
inductive Level where
  | error
  | warn
  | info
  | debug
  | trace
  deriving DecidableEq, Repr

namespace Level

def rank : Level → Nat
  | error => 0
  | warn => 1
  | info => 2
  | debug => 3
  | trace => 4

/-- The word in front of a line, five characters wide. -/
def label : Level → String
  | error => "ERROR"
  | warn => "WARN "
  | info => "INFO "
  | debug => "DEBUG"
  | trace => "TRACE"

end Level

inductive Note where
  | programLoaded (size : Nat)
  | configured (configuration : Configuration)
  | dialectChanged (dialect : Dialect)
  | tickrateChanged (tickrate : UInt32)
  | nativeCallIgnored (target : ShortAddress)
  | wordIgnored (word : UInt16)
  | patternLoaded (address : Address)
  | soundEnded
  | faulted (reason : Fault) (address : Address)
  | platformSkipped (name : String)
  | platformUsed (name : String)
  | catalogueRead (programs platforms digests : Nat)
  | imageLookedUp (digest : String) (known : Bool)
  | catalogueMissing (reason : String)
  | programStarted (path : String) (tickrate : UInt32)
  deriving DecidableEq, Repr

private def flagText (flag : Bool) : String :=
  if flag then "true" else "false"

def Dialect.text (dialect : Dialect) : String :=
  "Quirks \x7b shift: " ++ flagText dialect.shiftInPlace ++
    ", mem_inc_i_by_x: " ++ flagText dialect.shortAdvance ++
    ", mem_leave_i: " ++ flagText dialect.keepIndex ++
    ", wrap: " ++ flagText dialect.wrapSprites ++
    ", jump: " ++ flagText dialect.jumpByTopDigit ++
    ", vblank_wait: " ++ flagText dialect.waitForBlank ++
    ", reset_flag: " ++ flagText dialect.logicClearsFlag ++
    ", scale_scroll: " ++ flagText dialect.scaleScrolls ++ " \x7d"

def Voice.text : Voice → String
  | beep => "Beep"
  | pattern => "Pattern"

namespace Note

def level : Note → Level
  | programLoaded _ | catalogueRead .. | programStarted .. => .info
  | configured _ | dialectChanged _ | tickrateChanged _ | patternLoaded _ | soundEnded
  | platformUsed _ | imageLookedUp .. => .debug
  | nativeCallIgnored _ | wordIgnored _ => .trace
  | faulted .. | platformSkipped _ | catalogueMissing _ => .warn

def component : Note → String
  | programLoaded _ => "xo8::memory"
  | configured _ | dialectChanged _ | tickrateChanged _ => "xo8::vm"
  | nativeCallIgnored _ | wordIgnored _ | faulted .. => "xo8::cpu"
  | patternLoaded _ | soundEnded => "xo8::audio"
  | platformSkipped _ | platformUsed _ => "xo8::platform"
  | catalogueRead .. | imageLookedUp .. => "chip8_host::meta"
  | catalogueMissing _ | programStarted .. => "chip8"

def text : Note → String
  | programLoaded size => "Loaded program of " ++ toString size ++ " bytes"
  | configured configuration =>
    "Configuration: tickrate " ++ toString configuration.tickrate.toNat ++
      ", audio " ++ configuration.voice.text ++ ", " ++ configuration.dialect.text
  | dialectChanged dialect => "Quirks: " ++ dialect.text
  | tickrateChanged tickrate => "Tickrate: " ++ toString tickrate.toNat
  | nativeCallIgnored target => "Ignoring machine code call to 0x" ++ Hex.fixed 3 target.val
  | wordIgnored word => "Ignoring unknown opcode 0x" ++ Hex.fixed 4 word.toNat
  | patternLoaded address => "Audio pattern loaded from 0x" ++ Hex.fixed 4 address.toNat
  | soundEnded => "Sound off"
  | faulted reason address => reason.message ++ " at 0x" ++ Hex.fixed 4 address.toNat
  | platformSkipped name => "Skipping unsupported platform " ++ name
  | platformUsed name => "Using quirks of platform " ++ name
  | catalogueRead programs platforms digests =>
    "Metadata: " ++ toString programs ++ " programs, " ++ toString platforms ++
      " platforms, " ++ toString digests ++ " hashes"
  | imageLookedUp digest known => "ROM " ++ digest ++ " known: " ++ flagText known
  | catalogueMissing reason => reason ++ ", continuing without metadata"
  | programStarted path tickrate =>
    "Running " ++ path ++ " at " ++ toString tickrate.toNat ++ " instructions per frame"

def line (note : Note) : String :=
  "[" ++ note.level.label ++ "][" ++ note.component ++ "] " ++ note.text

end Note

/-- Notes as they come in; those less severe than the limit are dropped. -/
structure Log where
  limit : Level
  /-- Latest first. -/
  notes : List Note := []
  deriving DecidableEq, Repr

namespace Log

def keeps (log : Log) (note : Note) : Bool :=
  note.level.rank ≤ log.limit.rank

/-- Takes some notes, the earliest first. -/
def record (log : Log) (notes : List Note) : Log :=
  { log with
    notes := notes.foldl (fun kept note => if log.keeps note then note :: kept else kept) log.notes }

/-- A line for every note, the earliest first. -/
def lines (log : Log) : List String :=
  (log.notes.map Note.line).reverse

end Log

end ChipEight
