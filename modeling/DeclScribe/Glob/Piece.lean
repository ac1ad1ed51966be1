import DeclScribe.Glob.Token
import DeclScribe.Text.Bytes

/-!
Patterns in terms of bytes, and which bytes they accept. A pattern accepts bytes as a whole.
-/

namespace DeclScribe.Glob

/-- A set of bytes: those in the ranges, or those in none of them. -/
structure ByteSet where
  negated : Bool
  ranges : List (UInt8 × UInt8)
deriving DecidableEq, Repr

def slash : UInt8 := 47

def ByteSet.contains (set : ByteSet) (b : UInt8) : Bool :=
  set.negated != set.ranges.any fun (first, last) => first ≤ b && b ≤ last

def ByteSet.single (b : UInt8) : ByteSet := ⟨false, [(b, b)]⟩

/-- All bytes, or all but the slash. -/
def ByteSet.all (crossing : Bool) : ByteSet := ⟨true, if crossing then [] else [(slash, slash)]⟩

/-- A part of a pattern in terms of bytes: one byte of a set, as many as there are, or one of
several sequences. -/
inductive Piece where
  | one (set : ByteSet)
  | many (set : ByteSet)
  | choice (branches : List (List Piece))
deriving Repr

/-! ### Acceptance

What is accepted is followed on all ways at once. A mark stands before each byte and one at the end,
set where the pieces so far may have led.
-/

/-- The marks behind one byte of a set. -/
def ByteSet.one (set : ByteSet) (s : List UInt8) (marks : List Bool) : List Bool :=
  false :: s.zipWith (fun b mark => mark && set.contains b) marks

/-- The marks behind any number of bytes of a set. `reached` tells whether such bytes lead up to the
first mark. -/
def ByteSet.many (set : ByteSet) (reached : Bool) : List UInt8 → List Bool → List Bool
  | b :: s, mark :: marks =>
    let here := reached || mark
    here :: set.many (here && set.contains b) s marks
  | [], mark :: _ => [reached || mark]
  | _, [] => []

mutual

def Piece.pass (s : List UInt8) : Piece → List Bool → List Bool
  | .one set, marks => set.one s marks
  | .many set, marks => set.many false s marks
  | .choice branches, marks => passAny s branches marks

def passAll (s : List UInt8) : List Piece → List Bool → List Bool
  | [], marks => marks
  | p :: ps, marks => passAll s ps (p.pass s marks)

def passAny (s : List UInt8) : List (List Piece) → List Bool → List Bool
  | [], marks => marks.map fun _ => false
  | b :: bs, marks => (passAll s b marks).zipWith (· || ·) (passAny s bs marks)

end

/-- Whether a sequence of pieces accepts bytes: it leads from their start to their end. -/
def accepts (ps : List Piece) (s : List UInt8) : Bool :=
  (passAll s ps (true :: s.map fun _ => false)).getLastD false

/-! ### Tokens -/

def charPieces (c : Char) : List Piece :=
  (String.utf8EncodeChar c).map fun b => .one (.single b)

/-- The byte ranges of a range of characters. Only the byte between the two may vary, so a
character beyond ASCII stands for each of its bytes. -/
def byteRanges (range : Char × Char) : List (UInt8 × UInt8) :=
  let single := fun b : UInt8 => (b, b)
  let first := String.utf8EncodeChar range.1
  let last := String.utf8EncodeChar range.2
  if range.1 = range.2 then first.map single
  else
    first.dropLast.map single ++ [(first.getLastD 0, last.headD 0)] ++ last.tail.map single

mutual

/-- The pieces of a token. `crossing` tells whether stars and question marks accept slashes, which
classes always may. -/
def Token.pieces (crossing : Bool) : Token → List Piece
  | .literal c => charPieces c
  | .any => [.one (.all crossing)]
  | .run => [.many (.all crossing)]
  | .leading =>
    [.choice [[], [.one (.single slash)], [.many (.all true), .one (.single slash)]]]
  | .trailing => [.one (.single slash), .many (.all true)]
  | .between =>
    [.choice [[.one (.single slash)],
      [.one (.single slash), .many (.all true), .one (.single slash)]]]
  | .oneOf negated ranges => [.one ⟨negated, ranges.flatMap byteRanges⟩]
  | .choice branches =>
    match branchPieces crossing branches with
    | [] => []
    | bs => [.choice bs]

def sequencePieces (crossing : Bool) : List Token → List Piece
  | [] => []
  | t :: ts => t.pieces crossing ++ sequencePieces crossing ts

/-- The pieces of branches, without the branches that have none. -/
def branchPieces (crossing : Bool) : List (List Token) → List (List Piece)
  | [] => []
  | b :: bs =>
    match sequencePieces crossing b with
    | [] => branchPieces crossing bs
    | ps => ps :: branchPieces crossing bs

end

/-- The pieces of a pattern. Two stars alone accept everything. -/
def patternPieces (crossing : Bool) : List Token → List Piece
  | [.leading] => [.many (.all true)]
  | ts => sequencePieces crossing ts

end DeclScribe.Glob
