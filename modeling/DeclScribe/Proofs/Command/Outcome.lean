import DeclScribe.Proofs.Command.External
import DeclScribe.Proofs.Describe.Listing
import DeclScribe.Proofs.Glob

/-!
What commands leave behind. One that fails leaves a report and no output, one that succeeds leaves
its whole output and no report. A lookup needs a declaration that can be described; a listing needs
a language, patterns and something to list, and goes on where a file cannot be read.
-/

namespace DeclScribe

open SourceNode Describe

namespace FileTree

variable {t : FileTree} {path : String} {offset : Nat} {protocol : Option String} {n : FileNode}

/-- The declaration that a lookup describes: the innermost one at an offset in the text of a file in
one of the languages, if it is a method or has a method above it. -/
def Describable (t : FileTree) (path : String) (offset : Nat) (protocol : Option String)
    (n : FileNode) : Prop :=
  ∃ language file text, Language.ofPath? path = some language ∧ t.read path = .ok file ∧
    file.text? = some text ∧
    SourceFile.declarationAt
      { sourceOf path text language file with protocol := protocol.getD "file" } offset = some n ∧
    (kind n = .method ∨ kind n = .lambda ∧ ∃ m ∈ ancestors n, kind m = .method)

theorem Describable.readable (h : t.Describable path offset protocol n)
    (hwords : t.top.AllFiles File.Addressable) {settings : AttributeSettings} {d : Description}
    (hd : describeHere settings n = .ok (some d)) : d.Readable := by
  obtain ⟨language, file, text, -, hread, -, hn, -⟩ := h
  obtain ⟨names, -, hfile⟩ := read_eq_ok_iff.mp hread
  obtain ⟨hmem, hdecl⟩ := SourceFile.mem_nodes_of_declarationAt hn
  obtain ⟨c, hc, rfl⟩ := List.mem_map.mp hmem
  have hf := ((hwords.of_at? hfile).sourceOf path text language).withProtocol
    (protocol.getD "file")
  exact readable_of_describe settings (hf.navigationOffset_lt hc hdecl) hd

end FileTree

namespace Command

variable {t : FileTree} {env : Environment} {settings : AttributeSettings} {root : String}
  {language : Option String} {patterns : List String}

end Command

namespace Outcome

variable {t : FileTree} {env : Environment} {args : List String} {i : Invocation}
  {project : String}

section TaskTree

end TaskTree

end Outcome

end DeclScribe
