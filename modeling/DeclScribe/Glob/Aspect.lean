import DeclScribe.Glob.Token

/-!
What of a path a pattern looks at. Many patterns are only about the name at the end of a path or
about plain text in it; the others need an expression for the whole path.
-/

namespace DeclScribe.Glob

/-- What decides whether a pattern accepts a path. -/
inductive Aspect where
  /-- The last component, or its extension. -/
  | name
  /-- Text that the path is, starts with or ends with. -/
  | text
  /-- An expression, on paths that have an extension. -/
  | extension
  /-- An expression for the last component alone. -/
  | component
  /-- An expression. -/
  | expression
deriving DecidableEq, Repr

def literals? : List Token → Option (List Char)
  | [] => some []
  | .literal c :: ts => (literals? ts).map (c :: ·)
  | _ => none

/-- Whether the tokens spell a text of their own. -/
def isText (ts : List Token) : Bool := (literals? ts).any (!·.isEmpty)

/-- Whether the tokens spell a dot and what may follow the last dot of a name. -/
def isExtension (ts : List Token) : Bool :=
  match literals? ts with
  | some ('.' :: s) => !s.contains '.' && !s.contains '/'
  | _ => false

/-- Whether a pattern is about the last component: it is that, at every depth, or its extension
is. -/
def isAboutName (crossing : Bool) : List Token → Bool
  | .leading :: .run :: ts => isExtension ts
  | .leading :: ts => (literals? ts).any fun s => !s.isEmpty && !s.contains '/'
  | .run :: ts => crossing && isExtension ts
  | _ => false

def isFront (crossing : Bool) (ts : List Token) : Bool :=
  match ts.reverse with
  | .trailing :: front => (literals? front).isSome
  | .run :: front => crossing && isText front
  | _ => false

/-- Whether a pattern is a text that paths end with, unless the text is a slash. -/
def isBack (crossing : Bool) : List Token → Bool
  | .leading :: .run :: ts | .run :: ts =>
    crossing && (literals? ts).any fun s => !s.isEmpty && s ≠ ['/']
  | .leading :: ts => isText ts
  | _ => false

/-- Whether a pattern, given from its end, ends in an extension. -/
def endsInExtension : List Token → Bool
  | .literal '/' :: _ => false
  | .literal '.' :: _ => true
  | .literal _ :: ts => endsInExtension ts
  | _ => false

/-- Whether a token accepts one thing or several inside of a component: not a slash. -/
def Token.isInside (crossing : Bool) : Token → Bool
  | .literal c => c ≠ '/'
  | .any | .run => !crossing
  | .oneOf negated ranges => negated == ranges.any fun (first, last) => first ≤ '/' && '/' ≤ last
  | _ => false

/-- Whether a pattern describes the last component, at every depth. -/
def isAboutComponent (crossing : Bool) : List Token → Bool
  | .leading :: ts => !ts.isEmpty && ts.all (·.isInside crossing)
  | _ => false

def aspect (crossing : Bool) (ts : List Token) : Aspect :=
  if isAboutName crossing ts then .name
  else if isText ts || isFront crossing ts || isBack crossing ts then .text
  else if endsInExtension ts.reverse then .extension
  else if isAboutComponent crossing ts then .component
  else .expression

end DeclScribe.Glob
