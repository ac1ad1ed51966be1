import DeclScribe.Project.Listing
import DeclScribe.Proofs.Describe.Readable
import DeclScribe.Proofs.Json.RoundTrip
import DeclScribe.Proofs.Project.FileTree

/-!
Listings of many files. Each file that holds text has one entry, made from that file alone, and the
grouped form of the entries and their lines read back as the same descriptions.
-/

namespace DeclScribe

open Json

/-! ### Entries -/

namespace FileTree

variable {t : FileTree} {settings : AttributeSettings} {root path : String}

/-- The source file that a path leads to, where its bytes spell `text`. -/
def sourceOf (path text : String) (language : Language) (f : File) : SourceFile where
  path := path
  source := text
  language := language
  tree := f.tree.getD default

/-- A source file is loaded from text, in the language of its path. -/
theorem loadSource_eq_ok_iff {f : SourceFile} : t.loadSource path = .ok f ↔
    ∃ language file text, Language.ofPath? path = some language ∧ t.read path = .ok file ∧
      file.text? = some text ∧ f = sourceOf path text language file := by
  unfold loadSource
  cases Language.ofPath? path with
  | none => simp
  | some language =>
    unfold readText
    cases t.read path with
    | error reason => simp [bind, Except.bind]
    | ok file =>
      cases htext : file.text? <;>
        simp [bind, Except.bind, pure, Except.pure, throw, throwThe, MonadExceptOf.throw, htext,
          sourceOf, eq_comm]

theorem exists_of_listFile? {l : Listing} (h : t.listFile? settings root path = some l) :
    ∃ f, t.loadSource (Path.join root path) = .ok f ∧
      l = ⟨path, f.language, f.descriptions settings⟩ := by
  unfold listFile? at h
  cases hf : t.loadSource (Path.join root path) with
  | error reason =>
    rw [hf] at h
    cases h
  | ok f =>
    rw [hf] at h
    exact ⟨f, rfl, (Option.some.inj h).symm⟩

/-- An entry for the file at a path below a root: the language is that of the extension, and the
descriptions are those of the text of the file. -/
structure Lists (t : FileTree) (settings : AttributeSettings) (root path : String)
    (entry : Listing) : Prop where
  path_eq : entry.path = path
  language_eq : (Path.extension path).bind Language.ofExtension? = some entry.language
  descriptions_eq : ∃ f text, t.read (Path.join root path) = .ok f ∧
    Text.decode? f.bytes = some text ∧ entry.descriptions =
      (sourceOf (Path.join root path) text entry.language f).descriptions settings

end FileTree

/-- The nodes of a file's tree start at offsets that fit a word. -/
def File.Addressable (f : File) : Prop :=
  ∀ c ∈ (Syntax.Cursor.root (f.tree.getD default)).subtree, c.start < wordLimit

theorem File.Addressable.sourceOf {f : File} (hf : f.Addressable) (path text : String)
    (language : Language) : (FileTree.sourceOf path text language f).Addressable := by
  intro n hn
  obtain ⟨c, hc, rfl⟩ := List.mem_map.mp hn
  exact hf c hc

/-! ### Written entries -/

namespace Listing

/-- The descriptions of an entry are read again, also from within the grouped form. -/
structure Readable (l : Listing) : Prop where
  readable : ∀ d ∈ l.descriptions, d.Readable
  depth_le : ∀ d ∈ l.descriptions, d.toJson.depth ≤ 4

theorem allNumbers_toJson {l : Listing} (h : l.Readable) : l.toJson.AllNumbers Number.IsWord := by
  refine .object ?_
  simp only [List.forall_mem_cons]
  refine ⟨.string l.path, .string l.language.name, .array ?_, List.forall_mem_nil _⟩
  refine List.forall_mem_map.mpr ?_
  intro d hd
  exact Description.isWord_of_addressable (h.readable d hd).addressable

theorem renderLines_eq (ls : List Listing) :
    renderLines ls = Description.renderLines (ls.flatMap Listing.descriptions) := by
  apply String.toList_injective
  induction ls with
  | nil => rfl
  | cons l ls ih =>
    simp only [renderLines, Description.renderLines, String.toList_join] at ih ⊢
    simp only [List.map_cons, List.flatMap_cons, List.map_append, List.flatMap_append, ih,
      String.toList_join]

theorem map_read_linesOf_renderLines {ls : List Listing} (h : ∀ l ∈ ls, l.Readable) :
    (Text.linesOf (renderLines ls)).map Description.read =
      (ls.flatMap Listing.descriptions).map .ok := by
  rw [renderLines_eq]
  apply Description.map_read_linesOf_renderLines
  intro d hd
  obtain ⟨l, hl, hdl⟩ := List.mem_flatMap.mp hd
  exact (h l hl).readable d hdl

end Listing

end DeclScribe
