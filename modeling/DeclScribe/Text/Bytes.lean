import DeclScribe.Text.Blank

/-!
Text as bytes: its UTF-8 form, its lines, and offsets that count the bytes of it.
-/

namespace DeclScribe.Text

def decode? (bytes : List UInt8) : Option String := String.fromUTF8? ⟨bytes.toArray⟩

def encode (s : String) : List UInt8 := s.toUTF8.toList

def hexDigit? (c : Char) : Option UInt8 :=
  if '0' ≤ c && c ≤ '9' then some (c.toNat - '0'.toNat).toUInt8
  else if 'a' ≤ c && c ≤ 'f' then some (c.toNat - 'a'.toNat + 10).toUInt8
  else if 'A' ≤ c && c ≤ 'F' then some (c.toNat - 'A'.toNat + 10).toUInt8
  else none

def bytesOfHex? : List Char → Option (List UInt8)
  | [] => some []
  | [_] => none
  | high :: low :: rest =>
    match hexDigit? high, hexDigit? low, bytesOfHex? rest with
    | some h, some l, some bytes => some ((h * 16 + l) :: bytes)
    | _, _, _ => none

/-- A line without its end. A carriage return before the line feed is part of the line end. -/
def unended (line : List UInt8) : List UInt8 :=
  if line.getLast? = some 13 then line.dropLast else line

/-- The lines of a text. What stands behind the last line feed is a line unless it is empty. -/
def lines (bytes : List UInt8) : List (List UInt8) :=
  let pieces := splitOn 10 bytes
  pieces.dropLast.map unended ++ pieces.getLast?.toList.filter (!·.isEmpty)

def slice (s : String) (start stop : Nat) : String :=
  String.Pos.Raw.extract s ⟨start⟩ ⟨stop⟩

/-- The byte offset at which `needle` first occurs in the characters that start at `offset`. -/
def findFrom (needle : List Char) (offset : Nat) : List Char → Option Nat
  | [] => if needle.isEmpty then some offset else none
  | c :: rest =>
    if needle.isPrefixOf (c :: rest) then some offset
    else findFrom needle (offset + c.utf8Size) rest

/-- The byte offset at which `needle` first occurs; the empty text occurs at the start. -/
def find? (needle s : String) : Option Nat := findFrom needle.toList 0 s.toList

end DeclScribe.Text
