/-!
A directory held in memory, and what reading a path in it gives. Paths use `/`; a path that
leaves the directory finds nothing but directories outside. Names and paths have the usual
limits in length, counted in bytes.
-/

namespace ChipEight

/-- Why a file cannot be read. -/
inductive ReadError where
  | notFound
  | isDirectory
  | notDirectory
  | nameTooLong
  | other (text : String)
  deriving DecidableEq, Repr

def ReadError.message : ReadError → String
  | notFound => "No such file or directory (os error 2)"
  | isDirectory => "Is a directory (os error 21)"
  | notDirectory => "Not a directory (os error 20)"
  | nameTooLong => "File name too long (os error 36)"
  | other text => text

/-- The contents of a path, wherever they come from. -/
abbrev FileReader := String → Except ReadError (List UInt8)

namespace Path

/-- Bytes in the longest name. -/
def maxNameLength : Nat := 255

/-- Bytes in the longest path. -/
def maxLength : Nat := 4095

def split : List Char → List (List Char)
  | [] => [[]]
  | c :: rest =>
    if c = '/' then [] :: split rest
    else
      match split rest with
      | part :: parts => (c :: part) :: parts
      | [] => [[c]]

/-- The parts between the slashes, some of which may be empty. -/
def components (path : String) : List String :=
  (split path.toList).map String.ofList

/-- A name in a directory. -/
def join (directory name : String) : String :=
  if directory.toList.getLast? = some '/' then directory ++ name
  else directory ++ "/" ++ name

/-- What follows the last dot of the last part, unless the dot begins that part. -/
def extension? (path : String) : Option String :=
  match (split path.toList).getLast? with
  | none => none
  | some name =>
    let reversed := name.reverse
    match reversed.dropWhile (· ≠ '.') with
    | [] => none
    | [_] => none
    | _ => some (String.ofList (reversed.takeWhile (· ≠ '.')).reverse)

end Path

/-- A place below the directory: the names on the way to it, the innermost first. -/
abbrev Place := List String

/-- The place that one part of a path leads to. -/
def Place.enter (place : Place) (part : String) : Place :=
  if part = "" ∨ part = "." then place
  else if part = ".." then place.tail
  else part :: place

structure FileTree where
  /-- The places of directories, apart from the topmost. -/
  directories : List Place := []
  files : List (Place × List UInt8) := []

namespace FileTree

/-- The places that a path leads through, its end first. -/
def trail (path : String) : List Place :=
  (Path.components path).foldl (fun places part => (places.headD []).enter part :: places) []

/-- Puts a file into the tree, with the directories on the way to it. -/
def addFile (tree : FileTree) (path : String) (content : List UInt8) : FileTree :=
  match trail path with
  | [] => tree
  | place :: passed =>
    { directories := passed ++ tree.directories, files := (place, content) :: tree.files }

/-- Files by their paths; of several at one place the last one counts. -/
def ofFiles (files : List (String × List UInt8)) : FileTree :=
  files.foldl (fun tree (path, content) => tree.addFile path content) { }

def isDirectory (tree : FileTree) (place : Place) : Bool :=
  place = [] || place ∈ tree.directories

def contains (tree : FileTree) (place : Place) : Bool :=
  tree.isDirectory place || (tree.files.lookup place).isSome

/-- Follows one part of a path; `none` is a place outside. -/
def follow (tree : FileTree) (place : Option Place) (part : String) :
    Except ReadError (Option Place) :=
  match place with
  | none =>
    if part ∈ ["", ".", ".."] then .ok none
    else if Path.maxNameLength < part.utf8ByteSize then .error .nameTooLong
    else .error .notFound
  | some place =>
    if !tree.isDirectory place then .error .notDirectory
    else if part = ".." ∧ place = [] then .ok none
    else if Path.maxNameLength < part.utf8ByteSize then .error .nameTooLong
    else if tree.contains (place.enter part) then .ok (some (place.enter part))
    else .error .notFound

/-- The contents of the file at a path. -/
def read (tree : FileTree) : FileReader := fun path =>
  if path.isEmpty then .error .notFound
  else if Path.maxLength < path.utf8ByteSize then .error .nameTooLong
  else do
    let start : Option Place := if path.toList.head? = some '/' then none else some []
    match ← (Path.components path).foldlM tree.follow start with
    | none => .error .isDirectory
    | some place =>
      if tree.isDirectory place then .error .isDirectory
      else
        match tree.files.lookup place with
        | some content => .ok content
        | none => .error .notFound

end FileTree

end ChipEight
