import ChipEight.Configuration

/-!
The configuration for a program, from its file extension, from what is known about the
program, and from what is known about the platforms that it was written for. The platforms
are looked up in order of preference and no further than needed.
-/

namespace ChipEight

/-- What is known about a program. -/
structure ProgramHints where
  /-- Names of platforms, the preferred one first. -/
  platforms : List String
  tickrate : Option UInt32
  deriving DecidableEq, Repr

/-- What is known about a platform. -/
structure PlatformHints where
  dialect : Dialect
  tickrate : Option UInt32
  deriving DecidableEq, Repr

/-- What became of one name in the list of platforms. -/
inductive Visit where
  /-- The platform is one that this machine cannot be; it was not looked up. -/
  | skipped (name : String)
  | unknown (name : String)
  | used (name : String)
  deriving DecidableEq, Repr

/-- The name that was looked up. -/
def Visit.asked? : Visit → Option String
  | skipped _ => none
  | unknown name => some name
  | used name => some name

structure Resolution where
  configuration : Configuration
  visits : List Visit
  deriving DecidableEq, Repr

namespace Resolution

/-- Platforms that this machine cannot be. -/
def unsupported : List String := ["megachip8"]

/-- The first known platform among the supported ones, beside the names visited. -/
def search (lookup : String → Option PlatformHints) :
    List String → List Visit × Option PlatformHints
  | [] => ([], none)
  | name :: rest =>
    if name ∈ unsupported then
      let (visits, found) := search lookup rest
      (.skipped name :: visits, found)
    else
      match lookup name with
      | some hints => ([.used name], some hints)
      | none =>
        let (visits, found) := search lookup rest
        (.unknown name :: visits, found)

/-- A tickrate of zero counts as none. -/
def override (configuration : Configuration) (tickrate : Option UInt32) : Configuration :=
  match tickrate with
  | some rate => if 0 < rate then { configuration with tickrate := rate } else configuration
  | none => configuration

/-- Where a resolution starts: with the platform of the extension, if it names one. -/
def preset (extension : Option String) : Configuration :=
  match extension.bind Platform.ofExtension? with
  | some platform => platform.configuration
  | none => .standard

end Resolution

/-- The tickrate of the program wins over that of its platform, and the voice always comes
from the extension. -/
def resolve (extension : Option String) (program : Option ProgramHints)
    (lookup : String → Option PlatformHints) : Resolution :=
  let preset := Resolution.preset extension
  match program with
  | none => { configuration := preset, visits := [] }
  | some program =>
    let (visits, found) := Resolution.search lookup program.platforms
    let configuration := match found with
      | some platform =>
        Resolution.override { preset with dialect := platform.dialect } platform.tickrate
      | none => preset
    { configuration := Resolution.override configuration program.tickrate, visits }

/-- The names looked up, in order. -/
def Resolution.asked (resolution : Resolution) : List String :=
  resolution.visits.filterMap Visit.asked?

end ChipEight
