import DeclScribe.Settings.Load
import DeclScribe.Proofs.Text.Lines
import Mathlib.Data.List.Nodup
import Mathlib.Data.List.TakeWhile
import Mathlib.Logic.Function.Basic

/-!
Loading settings. What the settings come to is a matter of precedence alone: a variable that is not
blank, else the file, else the default. They load exactly if they are valid, and otherwise the first
of their faults is reported.
-/

namespace DeclScribe

open Text

/-- The file can be decoded, and sets these fields. A file that is not there sets none. -/
inductive SettingsFile.Sets : SettingsFile → AttributeOverrides → Prop
  | absent : Sets .absent {}
  | written {document : Document} {overrides : AttributeOverrides}
    (decoded : document.overrides? = some overrides) : Sets (.written (some document)) overrides

namespace AttributeSettings

section Spec

/-- The label that a variable stands for, if it is not blank. -/
def labelValue (value : Option String) : Option String :=
  value.bind fun text => if isBlankText text then none else some (trim text)

/-- Whether a text has nothing but white space between its commas. -/
def isBlankList (text : String) : Bool := text.toList.all fun c => c == ',' || isBlank c

/-- The parts of a text between commas that are not blank, trimmed. -/
def items (text : String) : List String :=
  ((splitOn ',' text.toList).filter fun part => !part.all isBlank).map fun part =>
    trim (String.ofList part)

/-- The list that a variable stands for, if it is not blank. -/
def listValue (value : Option String) : Option (List String) :=
  value.bind fun text => if isBlankList text then none else some (items text)

/-- What the settings come to, by precedence. Two fields have no variable. -/
def effective (file : AttributeOverrides) (env : Environment) : AttributeSettings where
  recognized := ((listValue (env "CODEDOWN_RECOGNIZED_ATTRIBUTES")).or file.recognized).getD
    ["public", "protected", "private", "abstract", "static", "final", "synchronized", "native",
      "default"]
  externalLabel :=
    ((labelValue (env "CODEDOWN_EXTERNAL_LABEL")).or file.externalLabel).getD "external"
  interfaceLabel :=
    ((labelValue (env "CODEDOWN_INTERFACE_LABEL")).or file.interfaceLabel).getD "interface"
  compiledExtensions := file.compiledExtensions.getD [".class"]
  archiveProtocols := file.archiveProtocols.getD ["jar", "zip"]

/-- Settings that can be used: the labels say something, and no keyword is recognized twice. -/
structure IsValid (s : AttributeSettings) : Prop where
  externalLabel : isBlankText s.externalLabel = false
  interfaceLabel : isBlankText s.interfaceLabel = false
  recognized : s.recognized.Nodup

/-- The keyword whose second occurrence comes first: it has occurred before, and up to there nothing
has occurred twice. -/
def RepeatsFirst (keyword : String) (keywords : List String) : Prop :=
  ∃ before after, keywords = before ++ keyword :: after ∧ keyword ∈ before ∧ before.Nodup

/-- A keyword that can be an item of a list in a variable. -/
structure IsItem (keyword : String) : Prop where
  no_comma : ',' ∉ keyword.toList
  trimmed : trim keyword = keyword
  not_blank : isBlankText keyword = false

/-- The report on settings that cannot be used. A label that is blank comes before a keyword that is
repeated, and the external label before the interface label. -/
inductive IsFaulty (s : AttributeSettings) : SettingsError → Prop
  | externalLabel (external : isBlankText s.externalLabel = true) : IsFaulty s .emptyExternalLabel
  | interfaceLabel (external : isBlankText s.externalLabel = false)
    (interface : isBlankText s.interfaceLabel = true) : IsFaulty s .emptyInterfaceLabel
  | recognized (external : isBlankText s.externalLabel = false)
    (interface : isBlankText s.interfaceLabel = false) {keyword : String}
    (keywords : RepeatsFirst keyword s.recognized) : IsFaulty s (.repeatedKeyword keyword)

end Spec

section Trim

variable {p : Char → Bool}

/-- Taking characters of a sort off the front or the back leaves whether all are of the sort. -/
theorem all_dropFront (s : List Char) : (dropFront p s).all p = s.all p := by
  induction s with
  | nil => rfl
  | cons c s ih =>
    rw [dropFront, List.dropWhile_cons]
    split
    · next hc =>
      rw [List.all_cons, hc, Bool.true_and]
      exact ih
    · rfl

theorem all_dropBack (s : List Char) : (dropBack p s).all p = s.all p := by
  rw [dropBack, List.all_reverse]
  exact (all_dropFront s.reverse).trans List.all_reverse

theorem isBlankText_trim (text : String) : isBlankText (trim text) = isBlankText text := by
  rw [isBlankText, trim, String.toList_ofList, all_dropBack, all_dropFront]
  rfl

/-- A text without white space at its ends is blank only if it is empty. -/
theorem trim_eq_empty_iff (text : String) : trim text = "" ↔ isBlankText text = true := by
  constructor
  · intro h
    rw [← isBlankText_trim, h]
    rfl
  · intro h
    have hnil : text.toList.dropWhile isBlank = [] :=
      List.dropWhile_eq_nil_iff.mpr (List.all_eq_true.mp h)
    rw [trim, dropFront, hnil]
    rfl

end Trim

section Variables

theorem labelOf_eq (value : Option String) : labelOf value = labelValue value := by
  cases value with
  | none => rfl
  | some text =>
    by_cases h : isBlankText text = true
    · simp [labelOf, labelValue, Option.filter, (trim_eq_empty_iff text).mpr h, h]
    · simp [labelOf, labelValue, Option.filter, mt (trim_eq_empty_iff text).mp h, h]

theorem items_eq (text : String) : items text =
    ((splitOn ',' text.toList).map fun part => trim (String.ofList part)).filter (· ≠ "") := by
  rw [items, List.filter_map]
  refine congrArg (List.map _) (List.filter_congr fun part _ => ?_)
  have hblank := trim_eq_empty_iff (String.ofList part)
  rw [isBlankText, String.toList_ofList] at hblank
  rw [Function.comp_apply, Bool.eq_iff_iff, Bool.not_eq_true', decide_eq_true_eq, Ne, hblank,
    Bool.not_eq_true]

theorem items_eq_nil_iff (text : String) : items text = [] ↔ isBlankList text = true := by
  have hparts : (∀ part ∈ splitOn ',' text.toList, ∀ c ∈ part, isBlank c = true) ↔
      ∀ c ∈ text.toList, c = ',' ∨ isBlank c = true := forall_mem_splitOn_iff text.toList
  rw [items, List.map_eq_nil_iff, List.filter_eq_nil_iff, isBlankList, List.all_eq_true]
  simpa using hparts

theorem listOf_eq (value : Option String) : listOf value = listValue value := by
  cases value with
  | none => rfl
  | some text =>
    have hitems : listOf (some text) = (some (items text)).filter (· ≠ []) := by
      rw [items_eq]
      rfl
    rw [hitems]
    by_cases h : isBlankList text = true
    · simp [listValue, (items_eq_nil_iff text).mpr h, h]
    · simp [listValue, mt (items_eq_nil_iff text).mp h, h]

theorem labelValue_of_blank {text : String} (h : isBlankText text = true) :
    labelValue (some text) = none := if_pos h

theorem listValue_of_blank {text : String} (h : isBlankList text = true) :
    listValue (some text) = none := if_pos h

/-- The label of a variable says something. -/
theorem isBlankText_of_labelValue {value : Option String} {label : String}
    (h : labelValue value = some label) : isBlankText label = false := by
  obtain ⟨text, -, htext⟩ := Option.bind_eq_some_iff.mp h
  split at htext
  · cases htext
  · next hblank =>
    rw [← Option.some.inj htext, isBlankText_trim]
    exact Bool.eq_false_iff.mpr hblank

/-- What is white space throughout has no comma, and so no items. -/
theorem isBlankList_of_isBlankText {text : String} (h : isBlankText text = true) :
    isBlankList text = true := by
  refine List.all_eq_true.mpr fun c hc => ?_
  rw [List.all_eq_true.mp h c hc, Bool.or_true]

theorem apply_environmentOverrides (file : AttributeOverrides) (env : Environment) :
    (environmentOverrides env).apply (file.apply {}) = effective file env := by
  simp only [environmentOverrides, AttributeOverrides.apply, effective, labelOf_eq, listOf_eq,
    Option.getD_or]
  rfl

end Variables

section Validation

/-- A repeated element is found where it occurs again, earlier in the list or in front of it. -/
theorem firstRepeat_eq_some_iff {earlier xs : List String} {k : String} :
    firstRepeat earlier xs = some k ↔ ∃ before after, xs = before ++ k :: after ∧
      (k ∈ earlier ∨ k ∈ before) ∧ before.Nodup ∧ ∀ x ∈ before, x ∉ earlier := by
  induction xs generalizing earlier with
  | nil => simp [firstRepeat]
  | cons x xs ih =>
    rw [firstRepeat]
    by_cases hx : x ∈ earlier
    · rw [if_pos hx]
      constructor
      · intro h
        obtain rfl : x = k := Option.some.inj h
        exact ⟨[], xs, rfl, Or.inl hx, List.nodup_nil, List.forall_mem_nil _⟩
      · rintro ⟨before, after, hsplit, -, -, hfresh⟩
        cases before with
        | nil => exact congrArg some (List.cons.inj hsplit).1
        | cons y before =>
          -- the list would start with an element that is fresh
          obtain ⟨rfl, -⟩ := List.cons.inj hsplit
          exact absurd hx (hfresh x List.mem_cons_self)
    · rw [if_neg hx, ih]
      constructor
      · rintro ⟨before, after, rfl, hk, hnodup, hfresh⟩
        have hxb : x ∉ before := fun hmem => hfresh x hmem List.mem_cons_self
        refine ⟨x :: before, after, rfl, ?_, List.nodup_cons.mpr ⟨hxb, hnodup⟩, ?_⟩
        · simp only [List.mem_cons] at hk ⊢
          tauto
        · refine List.forall_mem_cons.mpr ⟨hx, fun y hy hearlier => ?_⟩
          exact hfresh y hy (List.mem_cons_of_mem x hearlier)
      · rintro ⟨before, after, hsplit, hk, hnodup, hfresh⟩
        cases before with
        | nil =>
          -- the element itself would occur again, and nothing was in front of it
          obtain ⟨rfl, -⟩ := List.cons.inj hsplit
          exact absurd hk (by simpa using hx)
        | cons y before =>
          obtain ⟨rfl, rfl⟩ := List.cons.inj hsplit
          obtain ⟨hxb, hnodup⟩ := List.nodup_cons.mp hnodup
          refine ⟨before, after, rfl, ?_, hnodup, fun y hy hearlier => ?_⟩
          · simp only [List.mem_cons] at hk ⊢
            tauto
          · rcases List.mem_cons.mp hearlier with rfl | hearlier
            · exact hxb hy
            · exact hfresh y (List.mem_cons_of_mem x hy) hearlier

theorem firstRepeat_eq_none_iff {earlier xs : List String} :
    firstRepeat earlier xs = none ↔ xs.Nodup ∧ ∀ x ∈ xs, x ∉ earlier := by
  induction xs generalizing earlier with
  | nil => simp [firstRepeat]
  | cons x xs ih =>
    rw [firstRepeat]
    by_cases hx : x ∈ earlier
    · simp [hx]
    · rw [if_neg hx, ih, List.nodup_cons, List.forall_mem_cons]
      simp only [List.mem_cons, not_or]
      constructor
      · rintro ⟨hnodup, hfresh⟩
        exact ⟨⟨fun hmem => (hfresh x hmem).1 rfl, hnodup⟩, hx, fun y hy => (hfresh y hy).2⟩
      · rintro ⟨⟨hxs, hnodup⟩, -, hfresh⟩
        exact ⟨hnodup, fun y hy => ⟨fun heq => hxs (heq ▸ hy), hfresh y hy⟩⟩

theorem repeatsFirst_iff {keyword : String} {keywords : List String} :
    firstRepeat [] keywords = some keyword ↔ RepeatsFirst keyword keywords := by
  simp [firstRepeat_eq_some_iff, RepeatsFirst]

theorem nodup_iff {keywords : List String} : firstRepeat [] keywords = none ↔ keywords.Nodup := by
  simp [firstRepeat_eq_none_iff]

theorem validate_eq_ok_iff {s : AttributeSettings} : s.validate = .ok () ↔ s.IsValid := by
  unfold validate
  constructor
  · intro h
    split at h
    · cases h
    · next hexternal =>
      split at h
      · cases h
      · next hinterface =>
        split at h
        · cases h
        · next hnone =>
          rw [Bool.not_eq_true] at hexternal hinterface
          exact ⟨hexternal, hinterface, nodup_iff.mp hnone⟩
  · rintro ⟨hexternal, hinterface, hnodup⟩
    rw [hexternal, hinterface, nodup_iff.mpr hnodup]
    rfl

theorem validate_eq_error_iff {s : AttributeSettings} {e : SettingsError} :
    s.validate = .error e ↔ s.IsFaulty e := by
  unfold validate
  constructor
  · intro h
    split at h
    · next hexternal =>
      obtain rfl := Except.error.inj h
      exact .externalLabel hexternal
    · next hexternal =>
      rw [Bool.not_eq_true] at hexternal
      split at h
      · next hinterface =>
        obtain rfl := Except.error.inj h
        exact .interfaceLabel hexternal hinterface
      · next hinterface =>
        rw [Bool.not_eq_true] at hinterface
        split at h
        · next k hk =>
          obtain rfl := Except.error.inj h
          exact .recognized hexternal hinterface (repeatsFirst_iff.mp hk)
        · cases h
  · intro h
    cases h with
    | externalLabel hexternal => rw [hexternal]; rfl
    | interfaceLabel hexternal hinterface => rw [hexternal, hinterface]; rfl
    | recognized hexternal hinterface hkeywords =>
      rw [hexternal, hinterface, repeatsFirst_iff.mpr hkeywords]
      rfl

end Validation

section Load

theorem fileOverrides_eq_ok_iff {file : SettingsFile} {overrides : AttributeOverrides} :
    fileOverrides file = .ok overrides ↔ file.Sets overrides := by
  constructor
  · intro h
    cases file with
    | absent =>
      obtain rfl := Except.ok.inj h
      exact .absent
    | unreadable reason => cases h
    | written document =>
      cases document with
      | none => cases h
      | some document =>
        rw [fileOverrides, Option.bind_some] at h
        split at h
        · next decoded =>
          obtain rfl := Except.ok.inj h
          exact .written decoded
        · cases h
  · intro h
    cases h with
    | absent => rfl
    | written decoded => rw [fileOverrides, Option.bind_some, decoded]

variable {file : SettingsFile} {overrides : AttributeOverrides}

/-- A file that can be decoded leaves the outcome to the check of what the settings come to. -/
theorem load_eq_map_validate (h : file.Sets overrides) (env : Environment) :
    load file env = (effective overrides env).validate.map fun _ => effective overrides env := by
  have hload : load file env =
      (fileOverrides file).bind fun o =>
        ((environmentOverrides env).apply (o.apply {})).validate.map fun _ =>
          (environmentOverrides env).apply (o.apply {}) := by
    unfold load
    cases fileOverrides file with
    | error e => rfl
    | ok o => cases hvalid : ((environmentOverrides env).apply (o.apply {})).validate <;>
        simp [bind, Except.bind, pure, Except.pure, Except.map, hvalid]
  rw [hload, fileOverrides_eq_ok_iff.mpr h, Except.bind, apply_environmentOverrides]

theorem load_eq_ok_iff_of_sets (h : file.Sets overrides) (env : Environment)
    (s : AttributeSettings) :
    load file env = .ok s ↔ s = effective overrides env ∧ s.IsValid := by
  rw [load_eq_map_validate h]
  cases hvalid : (effective overrides env).validate with
  | error e =>
    refine iff_of_false (fun hok => nomatch hok) ?_
    rintro ⟨rfl, hs⟩
    cases hvalid.symm.trans (validate_eq_ok_iff.mpr hs)
  | ok _ =>
    constructor
    · intro hok
      obtain rfl := Except.ok.inj hok
      exact ⟨rfl, validate_eq_ok_iff.mp hvalid⟩
    · rintro ⟨rfl, -⟩
      rfl

theorem load_eq_error_iff_of_sets (h : file.Sets overrides) (env : Environment)
    (e : SettingsError) : load file env = .error e ↔ (effective overrides env).IsFaulty e := by
  rw [load_eq_map_validate h, ← validate_eq_error_iff]
  cases (effective overrides env).validate <;> simp [Except.map]

/-- Environments that give the fields the same values load the same settings. -/
theorem load_congr (file : SettingsFile) {env env' : Environment}
    (h : environmentOverrides env = environmentOverrides env') :
    load file env = load file env' := by
  rw [load, load, h]

end Load

section Environment

/-- What is read of a variable is as if it were not set, if so is what is read of its text. -/
theorem read_update {β : Type} {read : Option String → β} {value : Option String}
    (h : read value = read none) (env : Environment) (name other : String) :
    read (Function.update env name value other) = read (Function.update env name none other) := by
  rw [Function.update_apply, Function.update_apply]
  split
  · exact h
  · rfl

theorem listOf_of_blank {text : String} (h : isBlankList text = true) :
    listOf (some text) = listOf none := by
  rw [listOf_eq, listValue_of_blank h]
  rfl

theorem environmentOverrides_of_blank (env : Environment) (name : String) {text : String}
    (h : isBlankText text = true) :
    environmentOverrides (Function.update env name (some text)) =
      environmentOverrides (Function.update env name none) := by
  have hlabel : labelOf (some text) = labelOf none := by
    rw [labelOf_eq, labelValue_of_blank h]
    rfl
  have hlist := listOf_of_blank (isBlankList_of_isBlankText h)
  simp only [environmentOverrides, read_update hlabel, read_update hlist]

theorem environmentOverrides_of_blank_list (env : Environment) {text : String}
    (h : isBlankList text = true) :
    environmentOverrides (Function.update env "CODEDOWN_RECOGNIZED_ATTRIBUTES" (some text)) =
      environmentOverrides (Function.update env "CODEDOWN_RECOGNIZED_ATTRIBUTES" none) := by
  have hexternal : "CODEDOWN_EXTERNAL_LABEL" ≠ "CODEDOWN_RECOGNIZED_ATTRIBUTES" := by decide
  have hinterface : "CODEDOWN_INTERFACE_LABEL" ≠ "CODEDOWN_RECOGNIZED_ATTRIBUTES" := by decide
  simp only [environmentOverrides, Function.update_of_ne hexternal,
    Function.update_of_ne hinterface, read_update (listOf_of_blank h)]

/-- Items with commas between them are found again. -/
theorem items_intercalate {keywords : List String} (hne : keywords ≠ [])
    (h : ∀ keyword ∈ keywords, IsItem keyword) : items (",".intercalate keywords) = keywords := by
  have hcommas : ∀ part ∈ keywords.map String.toList, ',' ∉ part :=
    List.forall_mem_map.mpr fun keyword hk => (h keyword hk).no_comma
  have hparts : splitOn ',' (",".intercalate keywords).toList = keywords.map String.toList := by
    rw [String.toList_intercalate]
    exact splitOn_intercalate (mt List.map_eq_nil_iff.mp hne) hcommas
  have hfilter : (keywords.map String.toList).filter (fun part => !part.all isBlank) =
      keywords.map String.toList := by
    refine List.filter_eq_self.mpr (List.forall_mem_map.mpr fun keyword hk => ?_)
    have hblank : keyword.toList.all isBlank = false := (h keyword hk).not_blank
    rw [hblank]
    rfl
  rw [items, hparts, hfilter, List.map_map]
  refine (List.map_congr_left fun keyword hk => ?_).trans (List.map_id keywords)
  rw [Function.comp_apply, String.ofList_toList, (h keyword hk).trimmed]
  rfl

theorem listValue_intercalate {keywords : List String} (hne : keywords ≠ [])
    (h : ∀ keyword ∈ keywords, IsItem keyword) :
    listValue (some (",".intercalate keywords)) = some keywords := by
  have hitems := items_intercalate hne h
  have hblank : ¬ isBlankList (",".intercalate keywords) = true := by
    rw [← items_eq_nil_iff, hitems]
    exact hne
  exact (if_neg hblank).trans (congrArg some hitems)

end Environment

/-- A file that cannot be read or decoded is an error in every environment. Otherwise the settings
come to what the variables say that are not blank, else to what the file says, else to the defaults,
and they load as that if and only if they are valid, whatever the file alone would come to; else the
first fault is reported. A variable that is blank is as one that is not set. Every list of items
that are not repeated is loaded where the variable has it with commas between the items. -/
theorem load_by_precedence :
    (∀ reason env, load (.unreadable reason) env = .error (.unreadable reason)) ∧
      (∀ (document : Option Document) (env : Environment),
        document.bind Document.overrides? = none →
          load (.written document) env = .error .malformed) ∧
      (∀ (file : SettingsFile) (overrides : AttributeOverrides), file.Sets overrides →
        ∀ env : Environment,
          (∀ s, load file env = .ok s ↔ s = effective overrides env ∧ s.IsValid) ∧
          ∀ e, load file env = .error e ↔ (effective overrides env).IsFaulty e) ∧
      (∀ (file : SettingsFile) (env : Environment) (name text : String),
        isBlankText text = true ∨
            name = "CODEDOWN_RECOGNIZED_ATTRIBUTES" ∧ isBlankList text = true →
          load file (Function.update env name (some text)) =
            load file (Function.update env name none)) ∧
      (∀ (file : SettingsFile) (overrides : AttributeOverrides), file.Sets overrides →
        ∀ (env : Environment) (external interface : String) (keywords : List String),
          labelValue (env "CODEDOWN_EXTERNAL_LABEL") = some external →
          labelValue (env "CODEDOWN_INTERFACE_LABEL") = some interface →
          listValue (env "CODEDOWN_RECOGNIZED_ATTRIBUTES") = some keywords → keywords.Nodup →
            ∃ s, load file env = .ok s ∧ s.externalLabel = external ∧
              s.interfaceLabel = interface ∧ s.recognized = keywords) ∧
      ∀ (file : SettingsFile) (overrides : AttributeOverrides), file.Sets overrides →
        ∀ (env : Environment) (keywords : List String), keywords ≠ [] → keywords.Nodup →
          (∀ keyword ∈ keywords, IsItem keyword) →
          env "CODEDOWN_RECOGNIZED_ATTRIBUTES" = some (",".intercalate keywords) →
          isBlankText (effective overrides env).externalLabel = false →
          isBlankText (effective overrides env).interfaceLabel = false →
            ∃ s, load file env = .ok s ∧ s.recognized = keywords := by
  refine ⟨fun _ _ => rfl, ?_, ?_, ?_, ?_, ?_⟩
  · intro document env h
    rw [load, fileOverrides, h]
    rfl
  · intro file overrides h env
    exact ⟨load_eq_ok_iff_of_sets h env, load_eq_error_iff_of_sets h env⟩
  · rintro file env name text (hblank | ⟨rfl, hblank⟩)
    · exact load_congr file (environmentOverrides_of_blank env name hblank)
    · exact load_congr file (environmentOverrides_of_blank_list env hblank)
  · intro file overrides h env external interface keywords hexternal hinterface hkeywords hnodup
    have hlabels : (effective overrides env).externalLabel = external ∧
        (effective overrides env).interfaceLabel = interface ∧
        (effective overrides env).recognized = keywords := by
      simp [effective, hexternal, hinterface, hkeywords]
    refine ⟨effective overrides env, ?_, hlabels⟩
    refine (load_eq_ok_iff_of_sets h env _).mpr ⟨rfl, ?_, ?_, ?_⟩
    · rw [hlabels.1]
      exact isBlankText_of_labelValue hexternal
    · rw [hlabels.2.1]
      exact isBlankText_of_labelValue hinterface
    · rw [hlabels.2.2]
      exact hnodup
  · intro file overrides h env keywords hne hnodup hitems henv hexternal hinterface
    have hlist := listValue_intercalate hne hitems
    have hrecognized : (effective overrides env).recognized = keywords := by
      rw [effective, henv, hlist]
      rfl
    refine ⟨effective overrides env, ?_, hrecognized⟩
    refine (load_eq_ok_iff_of_sets h env _).mpr ⟨rfl, hexternal, hinterface, ?_⟩
    exact hrecognized ▸ hnodup

/-- A settings file with a blank label and a repeated keyword. -/
def spoiledDocument : Document :=
  .table [("attributes", .table [("external_label", .text " "),
    ("recognized", .list [.text "public", .text "static", .text "public"])])]

def spoiledOverrides : AttributeOverrides where
  externalLabel := some " "
  recognized := some ["public", "static", "public"]

/-- Variables of which one has white space at its ends. -/
def repairingEnvironment : Environment := fun name =>
  [("CODEDOWN_EXTERNAL_LABEL", " library "), ("CODEDOWN_INTERFACE_LABEL", "contract"),
    ("CODEDOWN_RECOGNIZED_ATTRIBUTES", "static,final")].lookup name

/-- On its own the file is refused for its label, also if a variable is blank. With the variables it
loads as they say. -/
theorem load_by_precedence_spoiledDocument :
    SettingsFile.Sets (.written (some spoiledDocument)) spoiledOverrides ∧
      load (.written (some spoiledDocument)) (fun _ => none) = .error .emptyExternalLabel ∧
      isBlankText "\t" = true ∧
      load (.written (some spoiledDocument))
          (Function.update (fun _ => none) "CODEDOWN_EXTERNAL_LABEL" (some "\t")) =
        load (.written (some spoiledDocument))
          (Function.update (fun _ => none) "CODEDOWN_EXTERNAL_LABEL" none) ∧
      load (.written none) repairingEnvironment = .error .malformed ∧
      (∃ s, load (.written (some spoiledDocument)) repairingEnvironment = .ok s ∧
        s.externalLabel = "library" ∧ s.interfaceLabel = "contract" ∧
        s.recognized = ["static", "final"]) ∧
      ",".intercalate ["static", "final"] = "static,final" ∧
      ∃ s, load (.written (some spoiledDocument)) repairingEnvironment = .ok s ∧
        s.recognized = ["static", "final"] := by
  have hsets : SettingsFile.Sets (.written (some spoiledDocument)) spoiledOverrides :=
    .written (by decide +kernel)
  have hblank : isBlankText "\t" = true := by decide +kernel
  have hjoined : ",".intercalate ["static", "final"] = "static,final" := by decide +kernel
  have hitems : ∀ keyword ∈ ["static", "final"], IsItem keyword := by
    simp only [List.forall_mem_cons, List.not_mem_nil, false_implies, implies_true, and_true]
    exact ⟨⟨by decide +kernel, by decide +kernel, by decide +kernel⟩,
      ⟨by decide +kernel, by decide +kernel, by decide +kernel⟩⟩
  obtain ⟨-, hmalformed, hload, hunset, hrepair, hlist⟩ := load_by_precedence
  refine ⟨hsets, ?_, hblank, ?_, ?_, ?_, hjoined, ?_⟩
  · exact ((hload _ _ hsets fun _ => none).2 _).mpr (.externalLabel (by decide +kernel))
  · exact hunset _ _ _ _ (Or.inl hblank)
  · exact hmalformed none repairingEnvironment rfl
  · exact hrepair _ _ hsets repairingEnvironment "library" "contract" ["static", "final"]
      (by decide +kernel) (by decide +kernel) (by decide +kernel) (by decide)
  · exact hlist _ _ hsets repairingEnvironment ["static", "final"] (List.cons_ne_nil _ _)
      (by decide) hitems (by rw [hjoined]; decide +kernel) (by decide +kernel) (by decide +kernel)

end AttributeSettings

end DeclScribe
