import ChipEight.Configuration
import ChipEight.Decimal
import ChipEight.Log

/-!
The arguments of the command line: one path and options in any order. A value follows its
option as the next argument or after an equals sign, and nothing after `--` is an option.
-/

namespace ChipEight.CommandLine

/-- What the program is asked to do. -/
structure Request where
  program : String
  /-- Directory of the catalogue. -/
  catalogue : Option String := none
  platform : Option Platform := none
  tickrate : Option UInt32 := none
  frames : UInt32 := 60
  seed : Option UInt64 := none
  /-- List the program instead of running it. -/
  list : Bool := false
  /-- How many of the next instructions to list in the end. -/
  peek : Option Nat := none
  /-- Print what the catalogue knows about the program. -/
  describe : Bool := false
  /-- Characters whose keys are held down. -/
  hold : String := ""
  logLevel : Level := .info
  deriving DecidableEq, Repr

inductive OptionName where
  | db
  | platform
  | tickrate
  | frames
  | seed
  | disasm
  | peek
  | info
  | hold
  | logLevel
  deriving DecidableEq, Repr

namespace OptionName

def all : List (String × OptionName) := [
  ("db", db), ("platform", platform), ("tickrate", tickrate), ("frames", frames),
  ("seed", seed), ("disasm", disasm), ("peek", peek), ("info", info), ("hold", hold),
  ("log-level", logLevel)]

def takesValue : OptionName → Bool
  | disasm | info => false
  | _ => true

end OptionName

inductive UsageError where
  | unknownOption (argument : String)
  | repeatedOption (name : OptionName)
  | missingValue (name : OptionName)
  | unexpectedValue (name : OptionName)
  | badValue (name : OptionName) (value : String)
  | missingProgram
  | badProgram
  | surplusArgument (argument : String)
  deriving DecidableEq, Repr

/-- Arguments told apart: options with their values, and paths. -/
structure Sorted where
  options : List (OptionName × String) := []
  paths : List String := []
  deriving DecidableEq, Repr

/-- An argument that is taken for an option, and so not for the value of one. -/
def looksLikeOption (argument : String) : Bool :=
  argument.toList.head? = some '-' && argument ≠ "-"

/-- Name and value of an option with its dashes cut off. -/
def splitOption (text : List Char) : String × Option String :=
  match text.span (· ≠ '=') with
  | (name, []) => (String.ofList name, none)
  | (name, _ :: value) => (String.ofList name, some (String.ofList value))

def Sorted.addOption (name : OptionName) (value : String) (sorted : Sorted) : Sorted :=
  { sorted with options := (name, value) :: sorted.options }

def Sorted.addPath (path : String) (sorted : Sorted) : Sorted :=
  { sorted with paths := path :: sorted.paths }

def sort : List String → Except UsageError Sorted
  | [] => .ok { }
  | argument :: rest =>
    match argument.toList with
    | ['-', '-'] => .ok { paths := rest }
    | '-' :: '-' :: text =>
      let (name, value) := splitOption text
      match OptionName.all.lookup name, value with
      | none, _ => .error (.unknownOption argument)
      | some name, some value =>
        if name.takesValue then (sort rest).map (·.addOption name value)
        else .error (.unexpectedValue name)
      | some name, none =>
        if name.takesValue then
          match rest with
          | [] => .error (.missingValue name)
          | value :: rest =>
            if looksLikeOption value then .error (.missingValue name)
            else (sort rest).map (·.addOption name value)
        else (sort rest).map (·.addOption name "")
    | _ =>
      if looksLikeOption argument then .error (.unknownOption argument)
      else (sort rest).map (·.addPath argument)

/-- A number below `limit`: at least one digit and nothing else. -/
def digits? (limit : Nat) (text : List Char) : Option Nat :=
  if text ≠ [] ∧ text.all Char.isDigit then Decimal.readBelow? limit text else none

/-- As `digits?`, possibly after a plus sign. -/
def unsigned? (limit : Nat) (text : String) : Option Nat :=
  match text.toList with
  | '+' :: rest => digits? limit rest
  | text => digits? limit text

/-- As `unsigned?`; zero may be negative too. -/
def signed? (limit : Nat) (text : String) : Option Nat :=
  match text.toList with
  | '-' :: rest => digits? 1 rest
  | _ => unsigned? limit text

def uint32? (text : String) : Option UInt32 :=
  (signed? 4294967296 text).map UInt32.ofNat

def uint64? (text : String) : Option UInt64 :=
  (unsigned? 18446744073709551616 text).map UInt64.ofNat

def platform? : String → Option Platform
  | "chip8" => some .base
  | "schip" => some .superChip
  | "xochip" => some .xoChip
  | _ => none

def level? : String → Option Level
  | "error" => some .error
  | "warn" => some .warn
  | "info" => some .info
  | "debug" => some .debug
  | "trace" => some .trace
  | _ => none

/-- A path must not be empty. -/
def path? (text : String) : Option String :=
  if text.isEmpty then none else some text

/-- The request with one option taken into account. -/
def Request.set? (request : Request) (name : OptionName) (value : String) : Option Request :=
  match name with
  | .db => (path? value).map ({ request with catalogue := · })
  | .platform => (platform? value).map ({ request with platform := · })
  | .tickrate => (uint32? value).map ({ request with tickrate := · })
  | .frames => (uint32? value).map ({ request with frames := · })
  | .seed => (uint64? value).map ({ request with seed := · })
  | .disasm => some { request with list := true }
  | .peek => (unsigned? 18446744073709551616 value).map ({ request with peek := · })
  | .info => some { request with describe := true }
  | .hold => some { request with hold := value }
  | .logLevel => (level? value).map ({ request with logLevel := · })

def applyOptions (request : Request) : List (OptionName × String) → Except UsageError Request
  | [] => .ok request
  | (name, value) :: rest =>
    if rest.any (·.1 = name) then .error (.repeatedOption name)
    else
      match request.set? name value with
      | some request => applyOptions request rest
      | none => .error (.badValue name value)

def parse (arguments : List String) : Except UsageError Request := do
  let sorted ← sort arguments
  match sorted.paths with
  | [] => .error .missingProgram
  | [path] =>
    match path? path with
    | some program => applyOptions { program } sorted.options
    | none => .error .badProgram
  | _ :: surplus :: _ => .error (.surplusArgument surplus)

end ChipEight.CommandLine
