import ChipEight.Console

/-!
A console with its program and settings. Settings are applied after the program is loaded,
the configuration first and then its single parts.
-/

namespace ChipEight

inductive SetupError where
  | noProgram
  | load (reason : LoadError)
  deriving DecidableEq, Repr

def SetupError.message : SetupError → String
  | noProgram => "program not provided"
  | load reason => reason.message

structure Setup where
  image : Option (List UInt8) := none
  configuration : Option Configuration := none
  dialect : Option Dialect := none
  tickrate : Option UInt32 := none
  seed : UInt64 := 0

namespace Setup

/-- Applies the settings that are given. -/
def apply (setup : Setup) (console : Console) : Console :=
  let console := match setup.configuration with
    | some configuration => console.configure configuration
    | none => console
  let console := match setup.dialect with
    | some dialect => console.setDialect dialect
    | none => console
  match setup.tickrate with
  | some tickrate => console.setTickrate tickrate
  | none => console

def build (setup : Setup) : Except SetupError Console :=
  match setup.image with
  | none => .error .noProgram
  | some image =>
    match (Console.ofSeed setup.seed).load image with
    | .error reason => .error (.load reason)
    | .ok console => .ok (setup.apply console)

end Setup

end ChipEight
