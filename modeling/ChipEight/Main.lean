import ChipEight.CommandLine.Run

/-!
The program: reads the files that a request names, carries the request out and prints.
-/

namespace ChipEight

/-- The number of an error, which is reported negated where opening fails. -/
def errorNumber (code : UInt32) : UInt32 :=
  if code < 2147483648 then code else -code

def ReadError.ofSystem : IO.Error → ReadError
  | .noFileOrDirectory .. => .notFound
  | .inappropriateType _ code _ => if errorNumber code = 21 then .isDirectory else .notDirectory
  | .invalidArgument _ code text =>
    if errorNumber code = 36 then .nameTooLong else .other text
  | .permissionDenied .. => .other "Permission denied (os error 13)"
  | reason => .other (toString reason)

/-- The bytes of a file, or why they cannot be read. -/
def readFile (path : String) : IO (Except ReadError (List UInt8)) := do
  try
    return .ok (← IO.FS.readBinFile path).toList
  catch reason =>
    return .error (.ofSystem reason)

/-- Reads files ahead of a run, which then finds them by their paths. -/
def readFiles (paths : List String) : IO FileReader := do
  let contents ← paths.mapM fun path => return (path, ← readFile path)
  return fun path => (contents.lookup path).getD (.error .notFound)

end ChipEight

open ChipEight in
def main (arguments : List String) : IO UInt32 := do
  match CommandLine.parse arguments with
  | .error _ =>
    IO.eprintln "usage: PROGRAM [OPTIONS]"
    return 2
  | .ok request =>
    let read ← readFiles request.paths
    let seed ← IO.rand 0 (UInt64.size - 1)
    let report := CommandLine.run request read (UInt64.ofNat seed)
    IO.print report.output
    IO.eprint report.diagnostics
    return UInt32.ofNat report.exitCode
