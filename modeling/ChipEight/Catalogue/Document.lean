import ChipEight.Catalogue
import ChipEight.FileTree
import ChipEight.Json.Parser
import ChipEight.Json.Record

/-!
The three documents of a catalogue, side by side in one directory: programs, platforms, and
the index of digests. They are read in this order, and the first that cannot be read or
understood decides.
-/

namespace ChipEight

inductive Document where
  | programs
  | platforms
  | index
  deriving DecidableEq, Repr

def Document.fileName : Document → String
  | programs => "programs.json"
  | platforms => "platforms.json"
  | index => "sha1-hashes.json"

inductive CatalogueError where
  | unreadable (document : Document) (path : String)
  | malformed (document : Document)
  deriving DecidableEq, Repr

def CatalogueError.message : CatalogueError → String
  | unreadable _ path => "cannot read " ++ path
  | malformed document => "malformed " ++ document.fileName

open Json (Value)

namespace Palette

def fields : List String := ["pixels", "buzzer", "silence"]

def ofValue? (value : Value) : Option Palette := do
  let record ← value.record? fields
  return {
    pixels := ← record.field "pixels" (Value.list? Value.text?) []
    buzzer := ← record.field "buzzer" Value.text? ""
    silence := ← record.field "silence" Value.text? "" }

end Palette

namespace ImageInfo

def fields : List String :=
  ["file", "platforms", "description", "embeddedTitle", "tickrate", "colors", "keys"]

def ofValue? (value : Value) : Option ImageInfo := do
  let record ← value.record? fields
  return {
    file := ← record.field "file" Value.text? ""
    platforms := ← record.field "platforms" (Value.list? Value.text?) []
    description := ← record.field "description" Value.text? ""
    embeddedTitle := ← record.field "embeddedTitle" Value.text? ""
    tickrate := ← record.field "tickrate" Value.uint32? 0
    palette := ← record.field "colors" (Value.optional? Palette.ofValue?) none
    keys := ← record.field "keys" (Value.map? Value.byte?) [] }

end ImageInfo

namespace ProgramInfo

def fields : List String := ["title", "release", "authors", "description", "roms"]

def ofValue? (value : Value) : Option ProgramInfo := do
  let record ← value.record? fields
  return {
    title := ← record.field "title" Value.text? ""
    release := ← record.field "release" Value.text? ""
    authors := ← record.field "authors" (Value.list? Value.text?) []
    description := ← record.field "description" Value.text? ""
    images := ← record.field "roms" (Value.map? ImageInfo.ofValue?) [] }

end ProgramInfo

namespace Dialect

def fields : List String :=
  ["shift", "memoryIncrementByX", "memoryLeaveIUnchanged", "wrap", "jump", "vblank", "logic",
    "scaleScroll"]

def ofValue? (value : Value) : Option Dialect := do
  let record ← value.record? fields
  return {
    shiftInPlace := ← record.field "shift" Value.bool? false
    shortAdvance := ← record.field "memoryIncrementByX" Value.bool? false
    keepIndex := ← record.field "memoryLeaveIUnchanged" Value.bool? false
    wrapSprites := ← record.field "wrap" Value.bool? false
    jumpByTopDigit := ← record.field "jump" Value.bool? false
    waitForBlank := ← record.field "vblank" Value.bool? false
    logicClearsFlag := ← record.field "logic" Value.bool? false
    scaleScrolls := ← record.field "scaleScroll" Value.bool? false }

end Dialect

namespace PlatformInfo

def fields : List String :=
  ["id", "name", "description", "release", "displayResolutions", "defaultTickrate", "quirks"]

def ofValue? (value : Value) : Option PlatformInfo := do
  let record ← value.record? fields
  return {
    id := ← record.field "id" Value.text? ""
    name := ← record.field "name" Value.text? ""
    description := ← record.field "description" Value.text? ""
    release := ← record.field "release" Value.text? ""
    resolutions := ← record.field "displayResolutions" (Value.list? Value.text?) []
    tickrate := ← record.field "defaultTickrate" Value.uint32? 0
    dialect := ← record.field "quirks" Dialect.ofValue? { } }

end PlatformInfo

namespace Catalogue

/-- Positions of the index are below 2 ^ 64. -/
def position? (value : Value) : Option Nat :=
  value.natBelow? 18446744073709551616

/-- A document as a whole. -/
def readDocument {α : Type} (document : Document) (read : Value → Option α) (text : String) :
    Except CatalogueError α :=
  match (Json.parse text).bind read with
  | some content => .ok content
  | none => .error (.malformed document)

/-- Reads the documents from wherever their texts come from. -/
def ofSource (source : Document → Except CatalogueError String) :
    Except CatalogueError Catalogue := do
  let programs ←
    source .programs >>= readDocument .programs (Value.list? ProgramInfo.ofValue?)
  let platforms ←
    source .platforms >>= readDocument .platforms (Value.list? PlatformInfo.ofValue?)
  let index ← source .index >>= readDocument .index (Value.map? position?)
  return { programs, platforms, index }

def ofTexts (programs platforms index : String) : Except CatalogueError Catalogue :=
  ofSource fun
    | .programs => .ok programs
    | .platforms => .ok platforms
    | .index => .ok index

/-- The text of a document in a directory. Bytes that are no text count as unreadable. -/
def documentText (read : FileReader) (directory : String) (document : Document) :
    Except CatalogueError String :=
  let path := Path.join directory document.fileName
  match read path with
  | .error _ => .error (.unreadable document path)
  | .ok content =>
    match String.fromUTF8? (ByteArray.mk content.toArray) with
    | some text => .ok text
    | none => .error (.unreadable document path)

def ofDirectory (read : FileReader) (directory : String) : Except CatalogueError Catalogue :=
  ofSource (documentText read directory)

end Catalogue

end ChipEight
