import DeclScribe.Proofs.Command.List
import DeclScribe.Proofs.Describe.Origin
import DeclScribe.Proofs.Describe.Readable

/-!
The external label in the output of commands. It tells of the place of a file and of nothing else,
so under the default settings a listing never has it, and the description of one declaration has it
where the file is said to be in an archive and there is a class to label.
-/

namespace DeclScribe

open SourceNode Describe

/-- The class of a method, or of the method that is nearest to a lambda. -/
def SourceNode.declaringClass {ν : Type} [SourceNode ν] (n : ν) : Option ν :=
  if kind n = .lambda then (containingMethod n).bind containingClass else containingClass n

namespace Describe

section Label

variable {ν : Type} [SourceNode ν] {settings : AttributeSettings}

theorem attributeLists_describeMethod (m : ν) (offset : Nat) :
    (describeMethod settings m offset).attributeLists =
      attributes settings m :: (containingClass m).toList.map (attributes settings) := by
  have howner : ((containingClass m).map (describeClass settings)).toList.map
      ClassDescription.attributes = (containingClass m).toList.map (attributes settings) := by
    cases containingClass m <;> rfl
  unfold describeMethod
  split
  · exact congrArg _ howner
  · exact congrArg _ howner

/-- All attribute lists in a description tell of the same class. -/
theorem labelledClass_of_describe {n : ν} {offset : Nat} {d : Description}
    (h : describe settings n offset = .ok (some d)) : d.attributeLists ≠ [] ∧
      ∀ as ∈ d.attributeLists, ∃ m, as = attributes settings m ∧
        labelledClass m = declaringClass n := by
  have hmethod (m : ν) (hm : kind m = .method) :
      (describeMethod settings m offset).attributeLists ≠ [] ∧
        ∀ as ∈ (describeMethod settings m offset).attributeLists,
          ∃ a, as = attributes settings a ∧ labelledClass a = containingClass m := by
    rw [attributeLists_describeMethod]
    refine ⟨List.cons_ne_nil _ _, ?_⟩
    intro as has
    rcases List.mem_cons.mp has with rfl | has
    · refine ⟨m, rfl, ?_⟩
      rw [labelledClass, hm]
      rfl
    · obtain ⟨c, hc, rfl⟩ := List.mem_map.mp has
      have hclass : containingClass m = some c := Option.mem_toList.mp hc
      have hkind : kind c = .type := by simpa using List.find?_some hclass
      exact ⟨c, rfl, (if_pos hkind).trans hclass.symm⟩
  rcases (describe_eq_some_iff settings).mp h with ⟨hn, rfl⟩ | ⟨hn, m, hm, rfl⟩
  · have hclass : declaringClass n = containingClass n := by
      rw [declaringClass, hn]
      rfl
    rw [hclass]
    exact hmethod n hn
  · have hclass : declaringClass n = containingClass m := by
      rw [declaringClass, if_pos hn, hm]
      rfl
    have hkind : kind m = .method := by simpa using List.find?_some hm
    rw [hclass]
    exact hmethod m hkind

/-- A label that is neither a keyword nor the interface label stands for external classes alone. -/
theorem externalLabel_mem_attributes_iff (hkeyword : settings.externalLabel ∉ settings.recognized)
    (hinterface : settings.externalLabel ≠ settings.interfaceLabel) (n : ν) :
    settings.externalLabel ∈ attributes settings n ↔
      isExternal settings (labelledClass n) = true := by
  have hfilter : settings.externalLabel ∉ settings.recognized.filter (hasModifier n) := by
    intro hmem
    exact hkeyword (List.mem_filter.mp hmem).1
  have hlabel : settings.externalLabel ∉
      (if isInterfaceDeclaration (labelledClass n) then [settings.interfaceLabel] else []) := by
    split
    · rw [List.mem_singleton]
      exact hinterface
    · exact List.not_mem_nil
  rw [attributes, labels, List.mem_append, List.mem_append, or_iff_right hfilter,
    or_iff_left hlabel]
  split
  · next hexternal => exact iff_of_true List.mem_cons_self hexternal
  · next hexternal => exact iff_of_false List.not_mem_nil hexternal

end Label

end Describe

namespace SourceFile

variable {settings : AttributeSettings} {f : SourceFile}

/-- The description of a node shows the external label in all of its attribute lists, where the file
is in an external place and the declaration has a class, and in none of them otherwise. -/
theorem externalLabel_mem_iff (hkeyword : settings.externalLabel ∉ settings.recognized)
    (hinterface : settings.externalLabel ≠ settings.interfaceLabel) {n : FileNode}
    (hn : n.file = f) {offset : Nat} {d : Description}
    (h : describe settings n offset = .ok (some d)) : ∀ as ∈ d.attributeLists,
      settings.externalLabel ∈ as ↔
        f.origin.isExternal settings = true ∧ (declaringClass n).isSome = true := by
  intro as has
  obtain ⟨m, rfl, hm⟩ := (labelledClass_of_describe h).2 as has
  -- what is above a node is in the same file, so the class is external as its file is
  have habove {a b : FileNode} {k : NodeKind} (hb : nearest k a = some b) : b.file = a.file := by
    obtain ⟨c, -, rfl⟩ := List.mem_map.mp (List.mem_of_find?_eq_some hb)
    rfl
  have hclass : ∀ c ∈ declaringClass n, c.file = f := by
    intro c hc
    unfold declaringClass at hc
    split at hc
    · obtain ⟨a, ha, hca⟩ := Option.bind_eq_some_iff.mp hc
      exact (habove hca).trans ((habove ha).trans hn)
    · exact (habove hc).trans hn
  rw [externalLabel_mem_attributes_iff hkeyword hinterface, hm, isExternal_of_file hclass,
    Bool.and_eq_true, and_comm]

end SourceFile

section Default

/-- A file in one of the languages is not compiled. -/
theorem isCompiledFile_of_ofPath? {path : String} (h : (Language.ofPath? path).isSome) :
    AttributeSettings.isCompiledFile {} ((Path.fileName path).getD "") = false := by
  obtain ⟨language, hlanguage⟩ := Option.isSome_iff_exists.mp h
  obtain ⟨extension, hextension, hof⟩ := Option.bind_eq_some_iff.mp hlanguage
  obtain ⟨name, hname, -⟩ := Option.bind_eq_some_iff.mp hextension
  rw [hname, Option.getD_some, Bool.eq_false_iff]
  intro hcompiled
  have hsuffix : ".class".toList <:+ name.toList := by
    simpa [AttributeSettings.isCompiledFile] using hcompiled
  obtain ⟨front, hfront⟩ := hsuffix
  -- then `class` would be the extension, and it is one of no language
  have hsplit : name.toList = front ++ '.' :: "class".toList := hfront.symm
  have hclass : extension = "class" :=
    Path.extension_eq_of_split hname hsplit (by decide) hextension
  have hnone : Language.ofExtension? "class" = none := by decide +kernel
  rw [hclass, hnone] at hof
  cases hof

theorem isArchiveProtocol_iff (protocol : String) :
    AttributeSettings.isArchiveProtocol {} protocol = true ↔
      protocol.toLower = "jar" ∨ protocol.toLower = "zip" := by
  have hjar : "jar".toLower = "jar" := by decide +kernel
  have hzip : "zip".toLower = "zip" := by decide +kernel
  change (["jar", "zip"].any fun p => p.toLower == protocol.toLower) = true ↔ _
  rw [List.any_cons, List.any_cons, List.any_nil, Bool.or_false, Bool.or_eq_true, beq_iff_eq,
    beq_iff_eq, hjar, hzip, @eq_comm _ "jar", @eq_comm _ "zip"]

example : AttributeSettings.isArchiveProtocol {} "ftp" = false := by decide +kernel

variable {t : FileTree} {path : String} {f : SourceFile}

/-- A loaded file counts as external for the protocol that it is given, and for nothing else. -/
theorem isExternal_of_loadSource (h : t.loadSource path = .ok f) (protocol : Option String) :
    FileOrigin.isExternal {}
        (SourceFile.origin { f with protocol := protocol.getD f.protocol }) = true ↔
      ∃ p ∈ protocol, p.toLower = "jar" ∨ p.toLower = "zip" := by
  obtain ⟨language, file, text, hlanguage, -, -, rfl⟩ := FileTree.loadSource_eq_ok_iff.mp h
  have hname := isCompiledFile_of_ofPath? (Option.isSome_of_eq_some hlanguage)
  have hfile : ¬ ("file".toLower = "jar" ∨ "file".toLower = "zip") := by decide +kernel
  rw [FileOrigin.isExternal, SourceFile.origin, FileTree.sourceOf, hname, Bool.false_or,
    isArchiveProtocol_iff]
  cases protocol with
  | none => simpa using hfile
  | some p => simp

theorem externalLabel_mem_iff_of_loadSource (h : t.loadSource path = .ok f)
    (protocol : Option String) {n : FileNode}
    (hn : n.file = { f with protocol := protocol.getD f.protocol }) {offset : Nat}
    {d : Description} (hd : describe {} n offset = .ok (some d)) : ∀ as ∈ d.attributeLists,
      "external" ∈ as ↔ (∃ p ∈ protocol, p.toLower = "jar" ∨ p.toLower = "zip") ∧
        (declaringClass n).isSome = true := by
  intro as has
  have hkeyword : "external" ∉ AttributeSettings.recognized {} := by decide
  have hinterface : "external" ≠ AttributeSettings.interfaceLabel {} := by decide
  rw [← isExternal_of_loadSource h protocol]
  exact SourceFile.externalLabel_mem_iff hkeyword hinterface hn hd as has

end Default

namespace Command

variable {t : FileTree} {env : Environment} {project : String}

theorem runDescribe_eq_ok_iff {settings : AttributeSettings} {path : String} {offset : Nat}
    {protocol : Option String} {output : String} :
    runDescribe t settings path offset protocol = .ok output ↔
      ∃ d, t.describeAt settings path offset protocol = .ok (some d) ∧
        output = d.render ++ "\n" := by
  unfold runDescribe
  cases t.describeAt settings path offset protocol with
  | error e => simp [bind, Except.bind, Except.mapError]
  | ok here =>
    cases here with
    | none => simp [bind, Except.bind, Except.mapError]
    | some d => simp [bind, Except.bind, Except.mapError, pure, Except.pure, eq_comm]

/-- Under the default settings no listing shows the external label. -/
theorem external_not_mem_of_list {directory language : Option String} {patterns : List String}
    {oneALine : Bool} {output : String}
    (h : run t env {} project (.list directory language patterns oneALine) = .ok output) :
    ∃ files listings, t.listFiles {} (listedRoot project directory) files = listings ∧
      output = (if oneALine then Listing.renderLines listings
        else Listing.renderGrouped listings ++ "\n") ∧
      ∀ l ∈ listings, ∀ d ∈ l.descriptions, ∀ as ∈ d.attributeLists, "external" ∉ as := by
  obtain ⟨ls, files, -, -, -, houtput⟩ := runList_eq_ok_iff.mp h
  refine ⟨files, _, rfl, houtput, ?_⟩
  intro l hl d hd as has hexternal
  obtain ⟨path, -, hpath⟩ := List.mem_filterMap.mp hl
  obtain ⟨f, hf, rfl⟩ := FileTree.exists_of_listFile? hpath
  obtain ⟨c, -, -, hdescribe⟩ := SourceFile.exists_of_mem_descriptions hd
  -- a file that is listed has no other protocol than the one it is loaded with
  obtain ⟨⟨p, hp, -⟩, -⟩ := (externalLabel_mem_iff_of_loadSource hf none (n := f.node c) rfl
    hdescribe as has).mp hexternal
  cases hp

/-- Under the default settings the description of one declaration shows the external label where the
protocol is that of an archive and the declaration has a class. -/
theorem external_mem_iff_of_describe {file output : String} {offset : Nat}
    {protocol : Option String}
    (h : run t env {} project (.describe file offset protocol) = .ok output) :
    ∃ f n d, t.loadSource (Path.join project file) = .ok f ∧
      SourceFile.declarationAt { f with protocol := protocol.getD f.protocol } offset = some n ∧
      describeHere {} n = .ok (some d) ∧ output = d.render ++ "\n" ∧ d.attributeLists ≠ [] ∧
      ∀ as ∈ d.attributeLists, "external" ∈ as ↔
        (∃ p ∈ protocol, p.toLower = "jar" ∨ p.toLower = "zip") ∧
          (declaringClass n).isSome = true := by
  obtain ⟨d, hd, rfl⟩ := runDescribe_eq_ok_iff.mp h
  obtain ⟨f, hf, hat⟩ := FileTree.describeAt_eq_some_iff.mp hd
  obtain ⟨n, hn, hhere⟩ := (SourceFile.describeAt_eq_some_iff {}).mp hat
  have hfile : n.file = { f with protocol := protocol.getD f.protocol } := by
    obtain ⟨c, -, rfl⟩ := List.mem_map.mp (SourceFile.mem_nodes_of_declarationAt hn).1
    rfl
  exact ⟨f, n, d, hf, hn, hhere, rfl, (labelledClass_of_describe hhere).1,
    externalLabel_mem_iff_of_loadSource hf protocol hfile hhere⟩

end Command

/-- Of the place of a file, descriptions show whether it is external and no more. Files of the same
code have the same descriptions where both are in external places or both are not. Where only the
second is, its descriptions are those of the first with the external label behind the recognized
keywords in each attribute list of a class or of a declaration in a class. So under the default
settings no listing has the label, and the attribute lists of one declaration have it where the
protocol is that of an archive, in letters of either case, and the declaration has a class. -/
theorem place_shows_as_external_label :
    (∀ (settings : AttributeSettings) (f g : SourceFile), f.SameCode g →
      (g.origin.isExternal settings = f.origin.isExternal settings →
        g.descriptions settings = f.descriptions settings ∧
        (∀ offset, g.describeAt settings offset = f.describeAt settings offset) ∧
        ∀ c offset, describe settings (g.node c) offset = describe settings (f.node c) offset) ∧
      (f.origin.isExternal settings = false → g.origin.isExternal settings = true →
        f.DescribedAlike (MarksExternal settings) settings g ∧
        ∀ c, ∃ keywords labels,
          keywords = settings.recognized.filter (hasModifier (f.node c)) ∧
          labels = (if isInterfaceDeclaration (labelledClass (f.node c)) then
            [settings.interfaceLabel] else []) ∧
          attributes settings (f.node c) = keywords ++ labels ∧
          attributes settings (g.node c) = keywords ++
            if (labelledClass (f.node c)).isSome then settings.externalLabel :: labels
            else labels)) ∧
      (∀ t env project directory language patterns oneALine output,
        Command.run t env {} project (.list directory language patterns oneALine) = .ok output →
        ∃ files listings,
          t.listFiles {} (Command.listedRoot project directory) files = listings ∧
          output = (if oneALine then Listing.renderLines listings
            else Listing.renderGrouped listings ++ "\n") ∧
          ∀ l ∈ listings, ∀ d ∈ l.descriptions, ∀ as ∈ d.attributeLists, "external" ∉ as) ∧
      ∀ t env project file offset protocol output,
        Command.run t env {} project (.describe file offset protocol) = .ok output →
        ∃ f n d, t.loadSource (Path.join project file) = .ok f ∧
          SourceFile.declarationAt { f with protocol := protocol.getD f.protocol } offset =
            some n ∧
          describeHere {} n = .ok (some d) ∧ output = d.render ++ "\n" ∧
          d.attributeLists ≠ [] ∧
          ∀ as ∈ d.attributeLists, "external" ∈ as ↔
            (∃ p ∈ protocol, p.toLower = "jar" ∨ p.toLower = "zip") ∧
              (declaringClass n).isSome = true := by
  refine ⟨?_, ?_, ?_⟩
  · intro settings f g hcode
    refine ⟨?_, ?_⟩
    · intro hexternal
      have halike : f.DescribedAlike (fun _ => Eq) settings g :=
        hcode.describedAlike (hcode.attributes_eq_of_isExternal_eq hexternal)
      exact halike.eq
    · intro hf hg
      exact ⟨hcode.describedAlike (hcode.marksExternal hf hg), hcode.attributes_split hf hg⟩
  · intro t env project directory language patterns oneALine output h
    exact Command.external_not_mem_of_list h
  · intro t env project file offset protocol output h
    exact Command.external_mem_iff_of_describe h

/-- The file of the runner, said to be in an archive. -/
def archivedRunnerFile : SourceFile := { runnerFile with protocol := "jar" }

theorem loadSource_taskTree : Command.taskTree.loadSource (Path.join "/p" "A.java") =
    .ok { taskFile with path := "/p/A.java" } := by
  have hpath : Path.join "/p" "A.java" = "/p/A.java" := by decide +kernel
  rw [hpath]
  apply FileTree.loadSource_eq_ok_iff.mpr
  refine ⟨.java, { bytes := Text.encode taskFile.source, tree := some taskFile.tree },
    taskFile.source, by decide +kernel, ?_, by decide +kernel, rfl⟩
  exact FileTree.read_eq_ok_iff.mpr ⟨["p", "A.java"], by decide +kernel, rfl⟩

/-- The lambda in the method of the class is described. -/
theorem describe_taskTree : ∃ (n : FileNode) (d : Description),
    SourceFile.declarationAt { taskFile with path := "/p/A.java", protocol := "ZIP" } 49 = some n ∧
      (declaringClass n).isSome = true ∧ describeHere {} n = .ok (some d) ∧
      Command.run Command.taskTree (fun _ => none) {} "/p" (.describe "A.java" 49 (some "ZIP")) =
        .ok (d.render ++ "\n") := by
  obtain ⟨n, hn, henclosed, hclass⟩ : ∃ n,
      SourceFile.declarationAt { taskFile with path := "/p/A.java", protocol := "ZIP" } 49 =
        some n ∧ Enclosed n ∧ (declaringClass n).isSome = true := by
    rw [SourceFile.declarationAt_eq_find? (by decide +kernel),
      Syntax.Cursor.smallestAt_eq_descend (k := 9) rfl]
    exact ⟨_, rfl, by decide +kernel, by decide +kernel⟩
  have hdecl : IsDeclaration n := (SourceFile.mem_nodes_of_declarationAt hn).2
  obtain ⟨d, hd, -⟩ := exists_describe {} hdecl henclosed (navigationOffset n)
  have hat : Command.taskTree.describeAt {} (Path.join "/p" "A.java") 49 (some "ZIP") =
      .ok (some d) :=
    FileTree.describeAt_eq_some_iff.mpr ⟨_, loadSource_taskTree,
      (SourceFile.describeAt_eq_some_iff {}).mpr ⟨n, hn, hd⟩⟩
  exact ⟨n, d, hn, hclass, hd, Command.runDescribe_eq_ok_iff.mpr ⟨d, hat, rfl⟩⟩

/-- In an archive the function in the interface and its lambda have the label, and the function in
no class has it not. The method of a class has it for a protocol of an archive in capitals. -/
theorem place_shows_as_external_label_archivedRunnerFile :
    runnerFile.SameCode archivedRunnerFile ∧
      runnerFile.origin.isExternal {} = false ∧ archivedRunnerFile.origin.isExternal {} = true ∧
      runnerFile.DescribedAlike (MarksExternal {}) {} archivedRunnerFile ∧
      (archivedRunnerFile.descriptions {}).map Description.attributeLists =
        [[["public", "external", "interface"], ["public", "external", "interface"]],
          [["public", "external", "interface"], ["public", "external", "interface"]],
          [["public", "final"]]] ∧
      SourceFile.descriptions {} { runnerFile with protocol := "ftp" } =
        runnerFile.descriptions {} ∧
      (∃ output listings,
        Command.run Command.taskTree (fun _ => none) {} "/p" (.list none none [] true) =
          .ok output ∧
        output = Listing.renderLines listings ∧
        ∀ l ∈ listings, ∀ d ∈ l.descriptions, ∀ as ∈ d.attributeLists, "external" ∉ as) ∧
      ∃ d : Description,
        Command.run Command.taskTree (fun _ => none) {} "/p" (.describe "A.java" 49 (some "ZIP")) =
          .ok (d.render ++ "\n") ∧
        ∃ as ∈ d.attributeLists, "external" ∈ as := by
  obtain ⟨hfiles, hlist, hdescribe⟩ := place_shows_as_external_label
  have hcode : runnerFile.SameCode archivedRunnerFile := ⟨rfl, rfl, rfl⟩
  have hinside : runnerFile.origin.isExternal {} = false := by decide +kernel
  have houtside : archivedRunnerFile.origin.isExternal {} = true := by decide +kernel
  have hftp : SourceFile.descriptions {} { runnerFile with protocol := "ftp" } =
      runnerFile.descriptions {} :=
    ((hfiles {} runnerFile { runnerFile with protocol := "ftp" } ⟨rfl, rfl, rfl⟩).1
      (by decide +kernel)).1
  refine ⟨hcode, hinside, houtside, ((hfiles {} _ _ hcode).2 hinside houtside).1, ?_, hftp, ?_, ?_⟩
  · rw [SourceFile.descriptions, listAll_eq_filterMap, SourceFile.preorder_root_eq_walk]
    decide +kernel
  · have hrun : ∃ output,
        Command.run Command.taskTree (fun _ => none) {} "/p" (.list none none [] true) =
          .ok output :=
      ⟨_, Command.runList_eq_ok_iff.mpr ⟨Language.all, _, rfl, Command.sourceFiles_taskTree,
        List.cons_ne_nil _ _, rfl⟩⟩
    obtain ⟨output, hrun⟩ := hrun
    obtain ⟨-, listings, -, houtput, hnone⟩ := hlist _ _ _ _ _ _ _ _ hrun
    exact ⟨output, listings, hrun, houtput, hnone⟩
  · obtain ⟨n, d, hn, hclass, hd, hrun⟩ := describe_taskTree
    obtain ⟨f', n', d', hf', hn', hd', -, hne, hmem⟩ := hdescribe _ _ _ _ _ _ _ hrun
    -- a run loads one file and finds one declaration in it
    obtain rfl := Except.ok.inj (loadSource_taskTree.symm.trans hf')
    obtain rfl : n = n' := Option.some.inj (hn.symm.trans hn')
    obtain rfl : d = d' := Option.some.inj (Except.ok.inj (hd.symm.trans hd'))
    obtain ⟨as, has⟩ := List.exists_mem_of_ne_nil _ hne
    have hzip : "ZIP".toLower = "zip" := by decide +kernel
    exact ⟨d, hrun, as, has, (hmem as has).mpr ⟨⟨"ZIP", rfl, Or.inr hzip⟩, hclass⟩⟩

end DeclScribe
