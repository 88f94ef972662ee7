import ChipEight.Dialect
import ChipEight.Sound

/-!
Everything that a machine is set to before it runs a program, and the settings of the three
platforms, which a file extension can name.
-/

namespace ChipEight

structure Configuration where
  dialect : Dialect
  /-- Instructions in a frame of a sixtieth of a second. -/
  tickrate : UInt32
  voice : Voice
  deriving DecidableEq, Repr

/-- The base machine and its two extensions. -/
inductive Platform where
  | base
  | superChip
  | xoChip
  deriving DecidableEq, Repr

namespace Platform

def configuration : Platform → Configuration
  | base => { dialect := .cosmac, tickrate := 15, voice := .beep }
  | superChip => { dialect := .superChip, tickrate := 30, voice := .beep }
  | xoChip => { dialect := .xoChip, tickrate := 100, voice := .pattern }

/-- The platform that a file extension names. Dots in front and the case of ASCII letters do
not matter. -/
def ofExtension? (extension : String) : Option Platform :=
  match String.ofList ((extension.toList.dropWhile (· = '.')).map Char.toLower) with
  | "ch" | "ch8" => some base
  | "sc" | "sc8" => some superChip
  | "xo" | "xo8" => some xoChip
  | _ => none

end Platform

namespace Configuration

/-- What a machine has before anything else is known. -/
def standard : Configuration :=
  Platform.superChip.configuration

/-- Instructions in a second. -/
def cyclesPerSecond (configuration : Configuration) : Float :=
  configuration.tickrate.toFloat * 60.0

end Configuration

end ChipEight
