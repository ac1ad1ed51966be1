/-!
The grammar of glob patterns, and the styles in which they are written.
-/

namespace DeclScribe.Glob

inductive Token where
  | literal (c : Char)
  /-- `?` -/
  | any
  /-- `*` -/
  | run
  /-- `**` at the front: any directories, or none. -/
  | leading
  /-- `/**` at the end: anything below. -/
  | trailing
  /-- `/**/` in between: a slash, with any directories before another one. -/
  | between
  /-- `[..]`: a class of characters, given by its ranges. -/
  | oneOf (negated : Bool) (ranges : List (Char × Char))
  /-- `{..}`: one of several patterns. -/
  | choice (branches : List (List Token))
deriving Repr, Inhabited

/-- How the patterns of a kind are read. -/
structure Style where
  /-- Whether stars and question marks accept slashes. -/
  crossing : Bool
  /-- Whether an opening bracket that no bracket closes stands for itself. -/
  bareBrackets : Bool
deriving DecidableEq, Repr

/-- The style of the patterns that select files. -/
def Style.selecting : Style := ⟨true, false⟩

/-- The style of the patterns in rules that leave entries out. -/
def Style.ignoring : Style := ⟨false, true⟩

/-- Why a text is no pattern. -/
inductive Fault where
  | unclosedClass
  | invalidRange (first last : Char)
  | unopenedChoice
  | unclosedChoice
  | danglingEscape
deriving DecidableEq, Repr

def Fault.message : Fault → String
  | unclosedClass => "unclosed character class; missing ']'"
  | invalidRange first last =>
    "invalid range; '" ++ first.toString ++ "' > '" ++ last.toString ++ "'"
  | unopenedChoice =>
    "unopened alternate group; missing '\x7b' (maybe escape '\x7d' with '[\x7d]'?)"
  | unclosedChoice =>
    "unclosed alternate group; missing '\x7d' (maybe escape '\x7b' with '[\x7b]'?)"
  | danglingEscape => "dangling '\\'"

end DeclScribe.Glob
