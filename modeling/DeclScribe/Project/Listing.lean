import DeclScribe.Caret
import DeclScribe.Description.Record
import DeclScribe.Project.Load

/-!
The descriptions of many files, and of the declaration at a place in one file.
-/

namespace DeclScribe

open Json

structure Listing where
  path : String
  language : Language
  descriptions : List Description
deriving DecidableEq, Repr

namespace Listing

def toJson (l : Listing) : Value :=
  .object [("path", .string l.path), ("language", .string l.language.name),
    ("descriptions", .array (l.descriptions.map Description.toJson))]

def renderGrouped (ls : List Listing) : String := (Value.array (ls.map toJson)).pretty

def renderLines (ls : List Listing) : String :=
  String.join (ls.map fun l => Description.renderLines l.descriptions)

end Listing

/-- Why there is no answer about a place in a file. -/
inductive LookupError where
  | load (path : String) (reason : LoadError)
  | describe (reason : DescribeError)
deriving DecidableEq, Repr

def LookupError.message : LookupError → String
  | load path _ => "failed to load " ++ path
  | describe reason => reason.message

/-- The wordings of what is behind an error, outermost first. -/
def LookupError.causes : LookupError → List String
  | load _ reason@(.unreadable _ inner) => [reason.message, inner.message]
  | load _ reason => [reason.message]
  | describe _ => []

namespace FileTree

def listFile? (t : FileTree) (settings : AttributeSettings) (root path : String) :
    Option Listing :=
  match t.loadSource (Path.join root path) with
  | .error _ => none
  | .ok f => some ⟨path, f.language, f.descriptions settings⟩

/-- The listings of several files, in their order. Files that do not load are left out. -/
def listFiles (t : FileTree) (settings : AttributeSettings) (root : String)
    (paths : List String) : List Listing :=
  paths.filterMap (t.listFile? settings root)

/-- The description of the innermost method or lambda at an offset in a file, which may be from a
file system of another protocol. -/
def describeAt (t : FileTree) (settings : AttributeSettings) (path : String) (offset : Nat)
    (protocol : Option String) : Except LookupError (Option Description) :=
  match t.loadSource path with
  | .error reason => .error (.load path reason)
  | .ok f =>
    let f := { f with protocol := protocol.getD f.protocol }
    (f.describeAt settings offset).mapError .describe

end FileTree

end DeclScribe
