import ChipEight.Json

/-!
Typed reading of JSON trees. A record is written as an object with named members or as an
array of its fields in order; fields that are missing take a default. Unknown members are
skipped, and a known one must not be repeated. A map is an object with names of its own, of
which the last one counts.
-/

namespace ChipEight.Json

/-- What is written for each field of a record. -/
abbrev Record := String → Option Value

namespace Value

def text? : Value → Option String
  | .string content => content
  | _ => none

def bool? : Value → Option Bool
  | .bool value => some value
  | _ => none

/-- A whole number below `limit`. -/
def natBelow? (limit : Nat) : Value → Option Nat
  | .number numeral => numeral.natBelow? limit
  | _ => none

def byte? (value : Value) : Option UInt8 :=
  (value.natBelow? 256).map UInt8.ofNat

def uint32? (value : Value) : Option UInt32 :=
  (value.natBelow? 4294967296).map UInt32.ofNat

/-- An array whose items are all read in the same way. -/
def list? {α : Type} (read : Value → Option α) : Value → Option (List α)
  | .array items => items.mapM read
  | _ => none

/-- Nothing for `null`. -/
def optional? {α : Type} (read : Value → Option α) : Value → Option (Option α)
  | .null => some none
  | value => (read value).map some

end Value

/-- The names of all members, if each of them denotes a text. -/
def named? (members : List (Option String × Value)) : Option (List (String × Value)) :=
  members.mapM fun (name, value) => name.map (·, value)

/-- Whether no field occurs twice among the names. -/
def isUnambiguous (fields : List String) (members : List (String × Value)) : Bool :=
  fields.all fun field => members.countP (·.1 = field) ≤ 1

def Value.record? (fields : List String) : Value → Option Record
  | .array items =>
    if items.length ≤ fields.length then some fun name => (fields.zip items).lookup name
    else none
  | .object members => do
    let members ← named? members
    if isUnambiguous fields members then some fun name => members.lookup name else none
  | _ => none

/-- A field, or its default if it is missing. -/
def Record.field {α : Type} (record : Record) (name : String) (read : Value → Option α)
    (default : α) : Option α :=
  match record name with
  | some value => read value
  | none => some default

/-- The last entry of every run of entries with one name. -/
def lastOfRuns {α : Type} : List (String × α) → List (String × α)
  | entry :: next :: rest =>
    if entry.1 = next.1 then lastOfRuns (next :: rest) else entry :: lastOfRuns (next :: rest)
  | entries => entries

/-- The entries of a map by name, each name once. -/
def Value.map? {α : Type} (read : Value → Option α) : Value → Option (List (String × α))
  | .object members => do
    let members ← named? members
    let entries ← members.mapM fun (name, value) => (read value).map (name, ·)
    return lastOfRuns (entries.mergeSort fun a b => a.1 ≤ b.1)
  | _ => none

end ChipEight.Json
