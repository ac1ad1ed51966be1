import DeclScribe.Path

/-!
The source languages.
-/

namespace DeclScribe

/-- A language whose declarations can be described. -/
inductive Language where
  | java
  | kotlin
deriving DecidableEq, Repr

namespace Language

def all : List Language := [java, kotlin]

def name : Language → String
  | java => "java"
  | kotlin => "kotlin"

/-- The language of a name, in ASCII letters of either case. -/
def ofName? (name : String) : Option Language :=
  match name.toLower with
  | "java" => some java
  | "kotlin" => some kotlin
  | _ => none

def ofExtension? (extension : String) : Option Language :=
  match extension.toLower with
  | "java" => some java
  | "kt" | "kts" => some kotlin
  | _ => none

def ofPath? (path : String) : Option Language := (Path.extension path).bind ofExtension?

end Language

end DeclScribe
