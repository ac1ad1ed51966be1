import DeclScribe.Glob.Token

/-!
The regular expressions of glob patterns: how they are written, and how deep their parts nest.
-/

namespace DeclScribe.Glob

/-- A regular expression: its text, and for each of the parts in a row how deep it nests. -/
structure Expression where
  text : String := ""
  depths : List Nat := []
deriving DecidableEq, Repr

namespace Expression

def deepest (depths : List Nat) : Nat := depths.foldl Nat.max 0

/-- How deep several things nest that stand side by side. One alone adds no level. -/
def depthOf : List Nat → Nat
  | [] => 0
  | [d] => d
  | depths => 1 + deepest depths

def depth (e : Expression) : Nat := depthOf e.depths

def append (e f : Expression) : Expression := ⟨e.text ++ f.text, e.depths ++ f.depths⟩

instance : Append Expression := ⟨append⟩

/-- The characters that an expression escapes. -/
def reserved : List Char := "\\.+*?()|[]\x7b\x7d^$#&-~".toList

/-- The text of a byte, which beyond ASCII is given by its hexadecimal digits. -/
def byteText (b : UInt8) : List Char :=
  let c := Char.ofNat b.toNat
  if 128 ≤ b then '\\' :: 'x' :: Nat.toDigits 16 b.toNat
  else if reserved.contains c then ['\\', c]
  else [c]

def charText (c : Char) : String := String.ofList ((String.utf8EncodeChar c).flatMap byteText)

/-- The expression of a character: one part for each of its bytes. -/
def ofChar (c : Char) : Expression := ⟨charText c, List.replicate c.utf8Size 0⟩

def rangeText (range : Char × Char) : String :=
  if range.1 = range.2 then charText range.1
  else charText range.1 ++ "-" ++ charText range.2

/-- The parts of a range: its bytes, of which those next to its dash are one part together. -/
def rangeDepths (range : Char × Char) : List Nat :=
  if range.1 = range.2 then List.replicate range.1.utf8Size 0
  else List.replicate (range.1.utf8Size + range.2.utf8Size - 1) 0

def ofClass (negated : Bool) (ranges : List (Char × Char)) : Expression where
  text := (if negated then "[^" else "[") ++ String.join (ranges.map rangeText) ++ "]"
  depths := [1 + depthOf (ranges.flatMap rangeDepths)]

def ofChoice (branches : List Expression) : Expression where
  text := "(?:" ++ "|".intercalate (branches.map text) ++ ")"
  depths := [1 + depthOf (branches.map depth)]

end Expression

mutual

def Token.expression (crossing : Bool) : Token → Expression
  | .literal c => .ofChar c
  | .any => if crossing then ⟨".", [0]⟩ else ⟨"[^/]", [1]⟩
  | .run => if crossing then ⟨".*", [1]⟩ else ⟨"[^/]*", [2]⟩
  | .leading => ⟨"(?:/?|.*/)", [4]⟩
  | .trailing => ⟨"/.*", [0, 1]⟩
  | .between => ⟨"(?:/|/.*/)", [4]⟩
  | .oneOf negated ranges => .ofClass negated ranges
  | .choice branches =>
    match branchExpressions crossing branches with
    | [] => {}
    | es => .ofChoice es

def sequenceExpression (crossing : Bool) : List Token → Expression
  | [] => {}
  | t :: ts => t.expression crossing ++ sequenceExpression crossing ts

/-- The expressions of branches, without the branches that have none. -/
def branchExpressions (crossing : Bool) : List (List Token) → List Expression
  | [] => []
  | b :: bs =>
    let e := sequenceExpression crossing b
    let es := branchExpressions crossing bs
    if e.depths.isEmpty then es else e :: es

end

/-- The expression of a pattern, which is about bytes and about a path as a whole. -/
def patternExpression (crossing : Bool) (ts : List Token) : Expression :=
  let inner : Expression := match ts with
    | [.leading] => ⟨".*", [1]⟩
    | ts => sequenceExpression crossing ts
  ⟨"(?-u)^", [0, 0]⟩ ++ inner ++ ⟨"$", [0]⟩

end DeclScribe.Glob
