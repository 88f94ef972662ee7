import ChipEight.Configuration.Resolution
import ChipEight.Digest
import ChipEight.Hex

/-!
What is known about programs and platforms. A program comes as one or more images, and an
image is known by its digest: an index leads from the digest to the program, and the program
describes each of its images.
-/

namespace ChipEight

/-- Suggested colours. -/
structure Palette where
  pixels : List String := []
  buzzer : String := ""
  silence : String := ""
  deriving DecidableEq, Repr

/-- A program image. A tickrate of zero stands for none. -/
structure ImageInfo where
  file : String := ""
  /-- Platforms in order of preference. -/
  platforms : List String := []
  description : String := ""
  embeddedTitle : String := ""
  tickrate : UInt32 := 0
  palette : Option Palette := none
  /-- Actions with the keys that trigger them. -/
  keys : List (String × UInt8) := []
  deriving DecidableEq, Repr

structure ProgramInfo where
  title : String := ""
  release : String := ""
  authors : List String := []
  description : String := ""
  /-- Images by digest. -/
  images : List (String × ImageInfo) := []
  deriving DecidableEq, Repr

structure PlatformInfo where
  id : String := ""
  name : String := ""
  description : String := ""
  release : String := ""
  resolutions : List String := []
  /-- Zero stands for none. -/
  tickrate : UInt32 := 0
  dialect : Dialect := { }
  deriving DecidableEq, Repr

structure Catalogue where
  programs : List ProgramInfo := []
  platforms : List PlatformInfo := []
  /-- Digests of images with positions in the list of programs. -/
  index : List (String × Nat) := []
  deriving DecidableEq, Repr

/-- A tickrate in the sense of hints, where zero is left out. -/
def positive? (tickrate : UInt32) : Option UInt32 :=
  if 0 < tickrate then some tickrate else none

namespace ImageInfo

def hints (image : ImageInfo) : ProgramHints :=
  { platforms := image.platforms, tickrate := positive? image.tickrate }

/-- Entries in the order of their names, by code point, and then of their keys. -/
def keyOrder (a b : String × UInt8) : Bool :=
  a.1 < b.1 || (a.1 = b.1 && a.2 ≤ b.2)

/-- A line for every action; nothing if there are none. -/
def legend? (image : ImageInfo) : Option String :=
  if image.keys.isEmpty then none
  else
    let lines := (image.keys.mergeSort keyOrder).map fun (action, key) =>
      action ++ ": " ++ Hex.shortByte key
    some ("Keys:\n" ++ "\n".intercalate lines ++ "\n")

end ImageInfo

def ProgramInfo.text (program : ProgramInfo) : String :=
  program.title ++ "\nReleased: " ++ program.release ++ "\nAuthors: " ++
    ", ".intercalate program.authors ++ "\n\n" ++ program.description

def PlatformInfo.hints (platform : PlatformInfo) : PlatformHints :=
  { dialect := platform.dialect, tickrate := positive? platform.tickrate }

namespace Catalogue

/-- The first platform of this name. -/
def platform? (catalogue : Catalogue) (id : String) : Option PlatformInfo :=
  catalogue.platforms.find? (·.id = id)

/-- The program that an image belongs to; a position past the programs leads nowhere. -/
def program? (catalogue : Catalogue) (digest : String) : Option ProgramInfo :=
  (catalogue.index.lookup digest).bind fun position => catalogue.programs[position]?

def image? (catalogue : Catalogue) (digest : String) : Option ImageInfo :=
  (catalogue.program? digest).bind fun program => program.images.lookup digest

/-- Description of the program that an image belongs to. -/
def text (catalogue : Catalogue) (digest : String) : String :=
  match catalogue.program? digest with
  | some program => program.text
  | none => "Unknown"

/-- The configuration for an image of known digest. -/
def resolveDigest (catalogue : Catalogue) (digest : String) (extension : Option String) :
    Resolution :=
  resolve extension ((catalogue.image? digest).map ImageInfo.hints) fun id =>
    (catalogue.platform? id).map PlatformInfo.hints

/-- The configuration for an image. -/
def resolveImage (catalogue : Catalogue) (image : List UInt8) (extension : Option String) :
    Resolution :=
  catalogue.resolveDigest (Digest.sha1 image) extension

end Catalogue

end ChipEight
