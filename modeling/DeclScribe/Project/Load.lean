import DeclScribe.Project.FileTree
import DeclScribe.Settings.Load
import DeclScribe.SourceFile

/-!
What a file tree holds for a project: its source files and its settings.
-/

namespace DeclScribe

inductive LoadError where
  | unsupportedLanguage (path : String)
  | unreadable (path : String) (reason : ReadError)
deriving DecidableEq, Repr

def LoadError.message : LoadError → String
  | unsupportedLanguage path => "unsupported language for `" ++ path ++ "`"
  | unreadable path reason => "failed to read `" ++ path ++ "`: " ++ reason.message

namespace FileTree

def readText (t : FileTree) (path : String) : Except ReadError (String × File) := do
  let f ← t.read path
  match f.text? with
  | some text => return (text, f)
  | none => throw .notText

/-- The source file at a path, in the language that the path tells. -/
def loadSource (t : FileTree) (path : String) : Except LoadError SourceFile :=
  match Language.ofPath? path with
  | none => .error (.unsupportedLanguage path)
  | some language =>
    match t.readText path with
    | .error reason => .error (.unreadable path reason)
    | .ok (text, f) => .ok { path, source := text, language, tree := f.tree.getD default }

def settingsFile (t : FileTree) (project : String) : SettingsFile :=
  let path := Path.join (Path.join project ".codedown") "config.toml"
  if t.contains path then
    match t.readText path with
    | .error reason => .unreadable reason.message
    | .ok (_, f) => .written f.document
  else .absent

def loadSettings (t : FileTree) (env : Environment) (project : String) :
    Except SettingsError AttributeSettings :=
  AttributeSettings.load (t.settingsFile project) env

end FileTree

end DeclScribe
