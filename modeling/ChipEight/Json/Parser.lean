import ChipEight.Json

/-!
From characters to JSON trees. The grammar is the strict one: no comments, no commas at the
end, no leading zeros, and nothing but blanks after the document.
-/

namespace ChipEight.Json.Parser

def isBlank (c : Char) : Bool :=
  c = ' ' || c = '\t' || c = '\n' || c = '\r'

def skipBlanks (text : List Char) : List Char :=
  text.dropWhile isBlank

def hexDigit? (c : Char) : Option Nat :=
  if '0' ≤ c ∧ c ≤ '9' then some (c.toNat - '0'.toNat)
  else if 'a' ≤ c ∧ c ≤ 'f' then some (c.toNat - 'a'.toNat + 10)
  else if 'A' ≤ c ∧ c ≤ 'F' then some (c.toNat - 'A'.toNat + 10)
  else none

/-- The number of four hexadecimal digits. -/
def unit? (a b c d : Char) : Option Nat := do
  let high := 16 * (← hexDigit? a) + (← hexDigit? b)
  let low := 16 * (← hexDigit? c) + (← hexDigit? d)
  return 256 * high + low

/-- What a backslash and one character stand for. -/
def escaped? : Char → Option Char
  | '"' => some '"'
  | '\\' => some '\\'
  | '/' => some '/'
  | 'b' => some '\x08'
  | 'f' => some '\x0c'
  | 'n' => some '\n'
  | 'r' => some '\r'
  | 't' => some '\t'
  | _ => none

/-- The code units up to a closing quote, beside the text after it. A surrogate can only come
from an escape. Control characters must be escaped. -/
def units : List Char → Option (List Nat × List Char)
  | [] => none
  | '"' :: rest => some ([], rest)
  | '\\' :: 'u' :: a :: b :: c :: d :: rest => do
    let unit ← unit? a b c d
    let (later, rest) ← units rest
    return (unit :: later, rest)
  | '\\' :: c :: rest => do
    let c ← escaped? c
    let (later, rest) ← units rest
    return (c.toNat :: later, rest)
  | c :: rest =>
    if c = '\\' ∨ c.toNat < 0x20 then none
    else do
      let (later, rest) ← units rest
      return (c.toNat :: later, rest)

/-- Joins surrogate pairs; `none` if half of one stands alone. -/
def characters : List Nat → Option (List Char)
  | [] => some []
  | [unit] => if 0xD800 ≤ unit ∧ unit < 0xE000 then none else some [Char.ofNat unit]
  | unit :: next :: rest =>
    if 0xD800 ≤ unit ∧ unit < 0xDC00 then
      if 0xDC00 ≤ next ∧ next < 0xE000 then do
        let c := Char.ofNat (0x10000 + (unit - 0xD800) * 0x400 + (next - 0xDC00))
        return c :: (← characters rest)
      else none
    else if 0xDC00 ≤ unit ∧ unit < 0xE000 then none
    else do return Char.ofNat unit :: (← characters (next :: rest))

/-- The string after an opening quote. -/
def quoted (text : List Char) : Option (Option String × List Char) := do
  let (units, rest) ← units text
  return ((characters units).map String.ofList, rest)

/-- At least one digit. -/
def digits (text : List Char) : Option (List Char × List Char) :=
  match text.span Char.isDigit with
  | ([], _) => none
  | (found, rest) => some (found, rest)

/-- The text after a fraction, if there is one. -/
def fraction : List Char → Option (Bool × List Char)
  | '.' :: rest => do
    let (_, rest) ← digits rest
    return (true, rest)
  | text => some (false, text)

/-- The text after an exponent, if there is one. -/
def exponent : List Char → Option (Bool × List Char)
  | c :: rest =>
    if c = 'e' ∨ c = 'E' then do
      let unsigned := match rest with
        | s :: tail => if s = '+' ∨ s = '-' then tail else rest
        | [] => rest
      let (_, rest) ← digits unsigned
      return (true, rest)
    else some (false, c :: rest)
  | [] => some (false, [])

def numeral (text : List Char) : Option (Numeral × List Char) := do
  let (negative, text) := match text with
    | '-' :: rest => (true, rest)
    | _ => (false, text)
  let (whole, rest) ← digits text
  if whole.head? = some '0' ∧ whole.length ≠ 1 then none
  else do
    let (hasFraction, rest) ← fraction rest
    let (hasExponent, rest) ← exponent rest
    return ({ negative, digits := whole, plain := !hasFraction && !hasExponent }, rest)

mutual

/-- A value after blanks, beside the text after it. The bound counts nested calls; twice the
length of the text is enough. -/
def value : Nat → List Char → Option (Value × List Char)
  | 0, _ => none
  | bound + 1, text =>
    match skipBlanks text with
    | 'n' :: 'u' :: 'l' :: 'l' :: rest => some (.null, rest)
    | 't' :: 'r' :: 'u' :: 'e' :: rest => some (.bool true, rest)
    | 'f' :: 'a' :: 'l' :: 's' :: 'e' :: rest => some (.bool false, rest)
    | '"' :: rest => do
      let (content, rest) ← quoted rest
      return (.string content, rest)
    | '[' :: rest =>
      match skipBlanks rest with
      | ']' :: rest => some (.array [], rest)
      | _ => do
        let (found, rest) ← items bound rest
        return (.array found, rest)
    | '{' :: rest =>
      match skipBlanks rest with
      | '}' :: rest => some (.object [], rest)
      | _ => do
        let (found, rest) ← members bound rest
        return (.object found, rest)
    | text => do
      let (numeral, rest) ← numeral text
      return (.number numeral, rest)

/-- The items of an array up to its end. -/
def items : Nat → List Char → Option (List Value × List Char)
  | 0, _ => none
  | bound + 1, text => do
    let (first, rest) ← value bound text
    match skipBlanks rest with
    | ']' :: rest => some ([first], rest)
    | ',' :: rest => do
      let (later, rest) ← items bound rest
      return (first :: later, rest)
    | _ => none

/-- The members of an object up to its end. -/
def members : Nat → List Char → Option (List (Option String × Value) × List Char)
  | 0, _ => none
  | bound + 1, text =>
    match skipBlanks text with
    | '"' :: rest => do
      let (name, rest) ← quoted rest
      match skipBlanks rest with
      | ':' :: rest => do
        let (first, rest) ← value bound rest
        match skipBlanks rest with
        | '}' :: rest => some ([(name, first)], rest)
        | ',' :: rest => do
          let (later, rest) ← members bound rest
          return ((name, first) :: later, rest)
        | _ => none
      | _ => none
    | _ => none

end

end ChipEight.Json.Parser

namespace ChipEight.Json

/-- The tree of a whole document. -/
def parse (text : String) : Option Value := do
  let (tree, rest) ← Parser.value (2 * text.length + 1) text.toList
  if Parser.skipBlanks rest = [] then some tree else none

end ChipEight.Json
