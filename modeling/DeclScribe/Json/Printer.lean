import DeclScribe.Json.Value

/-!
Writing JSON. One printer serves the compact form and the indented one; they differ only in the
white space between tokens.
-/

namespace DeclScribe.Json

/-- The white space of a written form: what stands at a line break of the given depth, and what
follows a colon. -/
structure Layout where
  lineBreak : Nat → List Char
  afterColon : List Char

def Layout.compact : Layout := ⟨fun _ => [], []⟩

/-- An item a line, indented by two spaces a level. -/
def Layout.indented : Layout := ⟨fun depth => '\n' :: List.replicate (2 * depth) ' ', [' ']⟩

def hexDigit (n : Nat) : Char :=
  if n < 10 then Char.ofNat ('0'.toNat + n) else Char.ofNat ('a'.toNat + (n - 10))

/-- A character as it stands in a string. Quotes, backslashes and control characters below `0x20`
are escaped, all else stands for itself. -/
def escape (c : Char) : List Char :=
  if c = '"' then ['\\', '"']
  else if c = '\\' then ['\\', '\\']
  else if c = '\n' then ['\\', 'n']
  else if c = '\r' then ['\\', 'r']
  else if c = '\t' then ['\\', 't']
  else if c = '\x08' then ['\\', 'b']
  else if c = '\x0c' then ['\\', 'f']
  else if c.toNat < 0x20 then
    ['\\', 'u', '0', '0', hexDigit (c.toNat / 16), hexDigit (c.toNat % 16)]
  else [c]

def quote (s : String) : List Char := '"' :: s.toList.flatMap escape ++ ['"']

def Number.text : Number → List Char
  | .natural n => Nat.toDigits 10 n
  | .other numeral => numeral

/-- Items between brackets, each on a line of its own. -/
def bracket (layout : Layout) (depth : Nat) (opening closing : Char) :
    List (List Char) → List Char
  | [] => [opening, closing]
  | item :: items =>
    opening :: layout.lineBreak (depth + 1) ++ item ++
      (items.flatMap fun i => ',' :: layout.lineBreak (depth + 1) ++ i) ++
      layout.lineBreak depth ++ [closing]

mutual

def print (layout : Layout) (depth : Nat) : Value → List Char
  | .null => ['n', 'u', 'l', 'l']
  | .bool true => ['t', 'r', 'u', 'e']
  | .bool false => ['f', 'a', 'l', 's', 'e']
  | .number n => n.text
  | .string s => quote s
  | .array items => bracket layout depth '[' ']' (printItems layout (depth + 1) items)
  | .object members => bracket layout depth '{' '}' (printMembers layout (depth + 1) members)

def printItems (layout : Layout) (depth : Nat) : List Value → List (List Char)
  | [] => []
  | v :: rest => print layout depth v :: printItems layout depth rest

def printMembers (layout : Layout) (depth : Nat) : List (String × Value) → List (List Char)
  | [] => []
  | (name, v) :: rest =>
    (quote name ++ ':' :: layout.afterColon ++ print layout depth v) ::
      printMembers layout depth rest

end

def Value.compact (v : Value) : String := String.ofList (print .compact 0 v)

def Value.pretty (v : Value) : String := String.ofList (print .indented 0 v)

end DeclScribe.Json
