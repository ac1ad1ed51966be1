import DeclScribe.Json.Number

/-!
Reading JSON. The grammar is the strict one: no comments, no trailing commas, no leading zeros,
no control characters and no lone surrogates in strings, and nothing after the value. Arrays and
objects nest up to a limit.
-/

namespace DeclScribe.Json

/-- A reader takes its result off the front of the text and leaves the rest. -/
abbrev Reader (α : Type) := List Char → Option (α × List Char)

def isSpace (c : Char) : Bool := c == ' ' || c == '\t' || c == '\n' || c == '\r'

def skipSpace (s : List Char) : List Char := s.dropWhile isSpace

def readWord (word : List Char) (result : α) : Reader α := fun s =>
  if word.isPrefixOf s then some (result, s.drop word.length) else none

/-! ### Numbers -/

def readDigits (s : List Char) : List Char × List Char :=
  (s.takeWhile Char.isDigit, s.dropWhile Char.isDigit)

def readSomeDigits : Reader (List Char) := fun s =>
  match readDigits s with
  | ([], _) => none
  | found => some found

/-- Reads the whole part of a number: `0`, or digits that do not start with `0`. -/
def readWhole : Reader (List Char) := fun s =>
  match readDigits s with
  | ([], _) => none
  | ('0' :: _ :: _, _) => none
  | found => some found

def readFraction : Reader (Option (List Char))
  | '.' :: s => (readSomeDigits s).map fun (digits, rest) => (some digits, rest)
  | s => some (none, s)

def readSignedDigits : Reader (Bool × List Char)
  | '-' :: s => (readSomeDigits s).map fun (digits, rest) => ((true, digits), rest)
  | '+' :: s => (readSomeDigits s).map fun (digits, rest) => ((false, digits), rest)
  | s => (readSomeDigits s).map fun (digits, rest) => ((false, digits), rest)

def readExponent : Reader (Option (Bool × List Char))
  | 'e' :: s => (readSignedDigits s).map fun (e, rest) => (some e, rest)
  | 'E' :: s => (readSignedDigits s).map fun (e, rest) => (some e, rest)
  | s => some (none, s)

def readSign : List Char → Bool × List Char
  | '-' :: s => (true, s)
  | s => (false, s)

def readNumber : Reader Number := fun s => do
  let (negative, s) := readSign s
  let (whole, s) ← readWhole s
  let (fraction, s) ← readFraction s
  let (exponent, s) ← readExponent s
  let number ← Numeral.number? ⟨negative, whole, fraction, exponent⟩
  return (number, s)

/-! ### Strings -/

def hexValue? (c : Char) : Option Nat :=
  if '0' ≤ c ∧ c ≤ '9' then some (c.toNat - '0'.toNat)
  else if 'a' ≤ c ∧ c ≤ 'f' then some (c.toNat - 'a'.toNat + 10)
  else if 'A' ≤ c ∧ c ≤ 'F' then some (c.toNat - 'A'.toNat + 10)
  else none

def readHex : Reader Nat
  | a :: b :: c :: d :: rest => do
    let a ← hexValue? a
    let b ← hexValue? b
    let c ← hexValue? c
    let d ← hexValue? d
    return (((a * 16 + b) * 16 + c) * 16 + d, rest)
  | _ => none

/-- Reads the character of a `\u` escape, after its `\u`. A leading surrogate needs an escaped
trailing one behind it; either alone is refused. -/
def readUnicode : Reader Char := fun s => do
  let (n, s) ← readHex s
  if 0xDC00 ≤ n ∧ n ≤ 0xDFFF then none
  else if 0xD800 ≤ n ∧ n ≤ 0xDBFF then
    match s with
    | '\\' :: 'u' :: s =>
      let (m, s) ← readHex s
      if 0xDC00 ≤ m ∧ m ≤ 0xDFFF then
        some (Char.ofNat (0x10000 + (n - 0xD800) * 0x400 + (m - 0xDC00)), s)
      else none
    | _ => none
  else some (Char.ofNat n, s)

def readEscape : Reader Char
  | '"' :: s => some ('"', s)
  | '\\' :: s => some ('\\', s)
  | '/' :: s => some ('/', s)
  | 'b' :: s => some ('\x08', s)
  | 'f' :: s => some ('\x0c', s)
  | 'n' :: s => some ('\n', s)
  | 'r' :: s => some ('\r', s)
  | 't' :: s => some ('\t', s)
  | 'u' :: s => readUnicode s
  | _ => none

/-- Reads one character of a string; `none` inside stands for the closing quote. -/
def readStringChar : Reader (Option Char)
  | '"' :: s => some (none, s)
  | '\\' :: s => (readEscape s).map fun (c, rest) => (some c, rest)
  | c :: s => if c.toNat < 0x20 then none else some (some c, s)
  | [] => none

/-- Reads the characters of a string and its closing quote, at most `fuel` of them. -/
def readStringChars : Nat → Reader (List Char)
  | 0, _ => none
  | fuel + 1, s =>
    match readStringChar s with
    | none => none
    | some (none, rest) => some ([], rest)
    | some (some c, rest) =>
      (readStringChars fuel rest).map fun (cs, rest) => (c :: cs, rest)

def readString : Reader String
  | '"' :: s => (readStringChars s.length s).map fun (cs, rest) => (String.ofList cs, rest)
  | _ => none

/-! ### Values -/

/-- Reads items up to the closing bracket, at least one and at most `fuel`. -/
def readItems (item : Reader α) (closing : Char) : Nat → Reader (List α)
  | 0, _ => none
  | fuel + 1, s => do
    let (a, s) ← item (skipSpace s)
    match skipSpace s with
    | ',' :: s =>
      let (as, s) ← readItems item closing fuel s
      return (a :: as, s)
    | c :: s => if c = closing then return ([a], s) else none
    | [] => none

def readList (item : Reader α) (closing : Char) : Reader (List α) := fun s =>
  match skipSpace s with
  | [] => none
  | c :: rest => if c = closing then some ([], rest) else readItems item closing s.length s

def readMember (value : Reader Value) : Reader (String × Value) := fun s => do
  let (name, s) ← readString s
  match skipSpace s with
  | ':' :: s =>
    let (v, s) ← value (skipSpace s)
    return ((name, v), s)
  | _ => none

/-- Reads a value that is neither an array nor an object. -/
def readScalar : Reader Value
  | s@('"' :: _) => (readString s).map fun (t, rest) => (.string t, rest)
  | s@('n' :: _) => readWord ['n', 'u', 'l', 'l'] .null s
  | s@('t' :: _) => readWord ['t', 'r', 'u', 'e'] (.bool true) s
  | s@('f' :: _) => readWord ['f', 'a', 'l', 's', 'e'] (.bool false) s
  | s => (readNumber s).map fun (n, rest) => (.number n, rest)

/-- Reads a value whose arrays and objects nest at most `limit` deep. -/
def readValue : Nat → Reader Value
  | limit + 1, '[' :: s =>
    (readList (readValue limit) ']' s).map fun (items, rest) => (.array items, rest)
  | limit + 1, '{' :: s =>
    (readList (readMember (readValue limit)) '}' s).map fun (members, rest) =>
      (.object members, rest)
  | _, s => readScalar s

def nestingLimit : Nat := 127

/-- The value that a whole text spells. -/
def Value.parse? (text : String) : Option Value :=
  match readValue nestingLimit (skipSpace text.toList) with
  | some (v, rest) => if (skipSpace rest).isEmpty then some v else none
  | none => none

end DeclScribe.Json
