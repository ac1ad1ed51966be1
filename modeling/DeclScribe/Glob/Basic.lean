import DeclScribe.Glob.Aspect
import DeclScribe.Glob.Expression
import DeclScribe.Glob.Parser
import DeclScribe.Glob.Piece
import DeclScribe.Path
import DeclScribe.Text.Bytes

/-!
Glob patterns, and which paths they accept.
-/

namespace DeclScribe

structure Glob where
  tokens : List Glob.Token
  /-- Whether stars and question marks accept slashes. -/
  crossing : Bool
deriving Repr

namespace Glob

def parse (style : Style) (pattern : String) : Except Fault Glob :=
  (readTokens style pattern).map fun tokens => ⟨tokens, style.crossing⟩

def pieces (g : Glob) : List Piece := patternPieces g.crossing g.tokens

def aspectOf (g : Glob) : Aspect := aspect g.crossing g.tokens

def expression (g : Glob) : Expression := patternExpression g.crossing g.tokens

/-- Whether a pattern finds in a path what it looks at. A path that ends in `..` has no name that
could be looked up. -/
def sees (g : Glob) (path : String) : Bool :=
  match g.aspectOf with
  | .name | .extension => (Path.segments path).getLast? != some ".."
  | .text | .component | .expression => true

def matchesPath (g : Glob) (path : String) : Bool :=
  accepts g.pieces (Text.encode path) && g.sees path

/-! ### Limits -/

def depthLimit : Nat := 250

/-- Whether the expression of a pattern nests too deep. Patterns that need none have no limit, and
those for a component do not nest. -/
def isTooDeep (g : Glob) : Bool :=
  match g.aspectOf with
  | .name | .text | .component => false
  | .extension | .expression => depthLimit < g.expression.depth

/-! ### Several patterns -/

inductive PatternError where
  | invalid (pattern : String) (fault : Fault)
  /-- An expression that goes with an extension nests too deep. -/
  | deepExtension (expression : String)
  /-- Of the other expressions for whole paths, the one at an index nests too deep. -/
  | deepExpression (index : Nat)
deriving DecidableEq, Repr

def PatternError.message : PatternError → String
  | invalid pattern _ => "invalid glob `" ++ pattern ++ "`"
  | deepExtension _ | deepExpression _ => "invalid glob set"

def PatternError.cause : PatternError → String
  | invalid pattern fault => "error parsing glob '" ++ pattern ++ "': " ++ fault.message
  | deepExtension expression =>
    "error parsing glob '" ++ expression ++ "': error parsing pattern 0"
  | deepExpression index => "error parsing pattern " ++ toString index

/-- The first pattern that nests too deep: of those that go with an extension, then of the others
that are expressions for whole paths. -/
def depthError? (gs : List Glob) : Option PatternError :=
  match gs.find? fun g => g.aspectOf = .extension && g.isTooDeep with
  | some g => some (.deepExtension g.expression.text)
  | none => ((gs.filter (·.aspectOf = .expression)).findIdx? isTooDeep).map .deepExpression

/-- The patterns that texts spell, or the error of the first text that is none. -/
def parseEach : List String → Except PatternError (List Glob)
  | [] => .ok []
  | p :: ps =>
    match parse .selecting p with
    | .error fault => .error (.invalid p fault)
    | .ok g => (parseEach ps).map (g :: ·)

def parseAll (patterns : List String) : Except PatternError (List Glob) := do
  let gs ← parseEach patterns
  match depthError? gs with
  | some e => throw e
  | none => return gs

def anyMatches (gs : List Glob) (path : String) : Bool := gs.any (·.matchesPath path)

/-- Whether a path is selected: by one of the patterns, or by there being none. -/
def selects (gs : List Glob) (path : String) : Bool := gs.isEmpty || anyMatches gs path

end Glob

end DeclScribe
