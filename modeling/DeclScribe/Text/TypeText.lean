import DeclScribe.Text.Alphanumeric
import DeclScribe.Text.Blank

/-!
Type texts. The canonical form keeps white space only where two word characters would run
together without it.
-/

namespace DeclScribe.Text

/-- Characters that make up words of a type: letters, digits, `_`, `$` and the wildcard `?`. -/
def isWordChar (c : Char) : Bool :=
  isAlphanumeric c || c == '_' || c == '$' || c == '?'

def needGap (left right : List Char) : Bool :=
  left.getLast?.any isWordChar && right.head?.any isWordChar

/-- The words in order, with a space wherever two of them need one. -/
def joinWords : List (List Char) → List Char
  | [] => []
  | [w] => w
  | w :: v :: rest => w ++ (if needGap w v then [' '] else []) ++ joinWords (v :: rest)

def canonicalType (text : String) : String :=
  String.ofList (joinWords (words text.toList))

end DeclScribe.Text
