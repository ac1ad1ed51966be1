import DeclScribe.Proofs.Json.Nesting
import DeclScribe.Proofs.Json.Numerals
import DeclScribe.Proofs.Json.Strings

/-!
Reading what was written. A written value is read back exactly where it nests no deeper than the
reader follows, in the compact form and in the indented one.
-/

namespace DeclScribe.Json

/-! ### Blanks -/

/-- The white space of a layout is white space to the reader. -/
structure Layout.IsBlank (layout : Layout) : Prop where
  lineBreak : ∀ depth, ∀ c ∈ layout.lineBreak depth, isSpace c = true
  afterColon : ∀ c ∈ layout.afterColon, isSpace c = true

theorem Layout.isBlank_compact : Layout.compact.IsBlank where
  lineBreak := by simp [Layout.compact]
  afterColon := by simp [Layout.compact]

theorem Layout.isBlank_indented : Layout.indented.IsBlank where
  lineBreak := by
    intro depth c hc
    rcases List.mem_cons.mp hc with rfl | hc
    · decide
    · rw [List.eq_of_mem_replicate hc]
      decide
  afterColon := by simp [Layout.indented, isSpace]

theorem skipSpace_append {blank : List Char} (hblank : ∀ c ∈ blank, isSpace c = true)
    (s : List Char) : skipSpace (blank ++ s) = skipSpace s :=
  List.dropWhile_append_of_pos hblank

theorem skipSpace_cons {c : Char} (hc : isSpace c = false) (s : List Char) :
    skipSpace (c :: s) = c :: s := by
  simp [skipSpace, hc]

theorem endsNumber_append {blank : List Char} (hblank : ∀ c ∈ blank, isSpace c = true)
    {rest : List Char} (hrest : EndsNumber rest) : EndsNumber (blank ++ rest) := by
  cases blank with
  | nil => exact hrest
  | cons b blank =>
    apply endsNumber_cons
    have hb := hblank b List.mem_cons_self
    simp only [isSpace, Bool.or_eq_true, beq_iff_eq] at hb
    rcases hb with ((rfl | rfl) | rfl) | rfl <;> decide

/-! ### Items -/

/-- Whether a character ends a list of items. -/
def IsClosing (c : Char) : Prop := c = ']' ∨ c = '}'

instance (c : Char) : Decidable (IsClosing c) := inferInstanceAs (Decidable (_ ∨ _))

theorem IsClosing.isSpace_eq_false {c : Char} (h : IsClosing c) : isSpace c = false := by
  rcases h with rfl | rfl <;> decide

theorem IsClosing.ne_comma {c : Char} (h : IsClosing c) : c ≠ ',' := by
  rcases h with rfl | rfl <;> decide

theorem IsClosing.endsNumber_cons {c : Char} (h : IsClosing c) (rest : List Char) :
    EndsNumber (c :: rest) := by
  rcases h with rfl | rfl <;> exact Json.endsNumber_cons (by decide)

/-- A written item starts with a character that neither is white space nor ends a list. -/
def Starts (text : List Char) : Prop :=
  ∃ c rest, text = c :: rest ∧ isSpace c = false ∧ ¬ IsClosing c

/-- A reader takes a text off the front of whatever it stands before, and makes the result of
it. -/
structure Reads {α : Type} (item : Reader α) (text : List Char) (result : Option α) : Prop where
  starts : Starts text
  reads : ∀ rest, EndsNumber rest → item (text ++ rest) = result.map fun a => (a, rest)

theorem Starts.skipSpace_append {text : List Char} (h : Starts text) {blank : List Char}
    (hblank : ∀ c ∈ blank, isSpace c = true) (rest : List Char) :
    skipSpace (blank ++ (text ++ rest)) = text ++ rest := by
  obtain ⟨c, tail, rfl, hc, -⟩ := h
  rw [Json.skipSpace_append hblank, List.cons_append, skipSpace_cons hc]

theorem Reads.reads_blank {α : Type} {item : Reader α} {text : List Char} {result : Option α}
    (h : Reads item text result) {blank : List Char} (hblank : ∀ c ∈ blank, isSpace c = true)
    {rest : List Char} (hrest : EndsNumber rest) :
    item (skipSpace (blank ++ (text ++ rest))) = result.map fun a => (a, rest) := by
  rw [h.starts.skipSpace_append hblank]
  exact h.reads rest hrest

theorem mapM_cons {α β : Type} (f : β → Option α) (b : β) (bs : List β) :
    (b :: bs).mapM f = (f b).bind fun a => (bs.mapM f).map (a :: ·) := by
  rw [List.mapM_cons]
  cases f b with
  | none => rfl
  | some a => cases bs.mapM f <;> rfl

section Lists

variable {α β : Type} {item : Reader α} {closing : Char} {fuel : Nat} {s t : List Char} {a : α}

theorem readItems_of_none (h : item (skipSpace s) = none) :
    readItems item closing (fuel + 1) s = none := by
  simp [readItems, h]

theorem readItems_of_comma (h : item (skipSpace s) = some (a, t)) {rest : List Char}
    (ht : skipSpace t = ',' :: rest) :
    readItems item closing (fuel + 1) s =
      (readItems item closing fuel rest).map fun (as, rest) => (a :: as, rest) := by
  simp only [readItems, h, ht, Option.bind_eq_bind, Option.bind_some]
  cases readItems item closing fuel rest <;> rfl

theorem readItems_of_closing (h : item (skipSpace s) = some (a, t)) {rest : List Char}
    (ht : skipSpace t = closing :: rest) (hcomma : closing ≠ ',') :
    readItems item closing (fuel + 1) s = some ([a], rest) := by
  simp [readItems, h, ht]

variable {text : β → List Char} {result : β → Option α} {gap last rest : List Char}

/-- What stands between an opening bracket and the end of the text, item by item. -/
def itemsText (gap last : List Char) (closing : Char) (text : β → List Char) (rest : List Char) :
    β → List β → List Char
  | b, [] => gap ++ (text b ++ (last ++ closing :: rest))
  | b, i :: bs => gap ++ (text b ++ ',' :: itemsText gap last closing text rest i bs)

theorem bracket_append (layout : Layout) (depth : Nat) (opening : Char) (b : β) (bs : List β) :
    bracket layout depth opening closing ((b :: bs).map text) ++ rest =
      opening :: itemsText (layout.lineBreak (depth + 1)) (layout.lineBreak depth) closing text
        rest b bs := by
  induction bs generalizing b with
  | nil => simp [bracket, itemsText]
  | cons i bs ih =>
    have hi := (List.cons.inj (ih i)).2
    rw [itemsText, ← hi]
    simp [bracket]

theorem length_lt_length_itemsText (b : β) (bs : List β) :
    bs.length < (itemsText gap last closing text rest b bs).length := by
  induction bs generalizing b with
  | nil =>
    simp only [itemsText, List.length_append, List.length_cons, List.length_nil]
    omega
  | cons i bs ih =>
    have hi := ih i
    simp only [itemsText, List.length_append, List.length_cons]
    omega

theorem exists_skipSpace_itemsText (hgap : ∀ c ∈ gap, isSpace c = true) {b : β} (bs : List β)
    (hb : Starts (text b)) :
    ∃ c tail, skipSpace (itemsText gap last closing text rest b bs) = c :: tail ∧
      ¬ IsClosing c := by
  have hfirst : ∃ tail, itemsText gap last closing text rest b bs = gap ++ (text b ++ tail) := by
    cases bs <;> exact ⟨_, rfl⟩
  obtain ⟨tail, hfirst⟩ := hfirst
  have hskip := hb.skipSpace_append hgap tail
  obtain ⟨c, behind, htext, -, hne⟩ := hb
  refine ⟨c, behind ++ tail, ?_, hne⟩
  rw [hfirst, hskip, htext, List.cons_append]

/-- Items are read one after the other, and the first that is refused stops the reader. -/
theorem readItems_itemsText (hclosing : IsClosing closing)
    (hgap : ∀ c ∈ gap, isSpace c = true) (hlast : ∀ c ∈ last, isSpace c = true)
    {b : β} {bs : List β} (hitems : ∀ i ∈ b :: bs, Reads item (text i) (result i))
    (hfuel : bs.length < fuel) :
    readItems item closing fuel (itemsText gap last closing text rest b bs) =
      ((b :: bs).mapM result).map fun as => (as, rest) := by
  obtain ⟨n, rfl⟩ := Nat.exists_eq_succ_of_ne_zero (Nat.ne_of_gt (Nat.zero_lt_of_lt hfuel))
  have hb := hitems b List.mem_cons_self
  -- a comma or a closing bracket stands behind each item, and neither continues a number
  induction bs generalizing b n with
  | nil =>
    have hread := hb.reads_blank hgap (endsNumber_append hlast (hclosing.endsNumber_cons rest))
    rw [itemsText, mapM_cons]
    cases hr : result b with
    | none =>
      rw [hr] at hread
      exact readItems_of_none hread
    | some a =>
      rw [hr] at hread
      refine readItems_of_closing hread ?_ hclosing.ne_comma
      rw [skipSpace_append hlast, skipSpace_cons hclosing.isSpace_eq_false]
  | cons i bs ih =>
    have hcomma : EndsNumber (',' :: itemsText gap last closing text rest i bs) :=
      endsNumber_cons (by decide)
    have hread := hb.reads_blank hgap hcomma
    rw [itemsText, mapM_cons]
    cases hr : result b with
    | none =>
      rw [hr] at hread
      exact readItems_of_none hread
    | some a =>
      rw [hr] at hread
      have hn : bs.length < n := Nat.lt_of_succ_lt_succ hfuel
      obtain ⟨m, rfl⟩ := Nat.exists_eq_succ_of_ne_zero (Nat.ne_of_gt (Nat.zero_lt_of_lt hn))
      have hrest := ih (fun j hj => hitems j (List.mem_cons_of_mem b hj)) m hn
        (hitems i (by simp))
      rw [readItems_of_comma hread (skipSpace_cons (by decide) _), hrest]
      cases (i :: bs).mapM result <;> rfl

/-- A written list is read item by item, in whatever white space it is laid out. -/
theorem readList_bracket {layout : Layout} (hlayout : layout.IsBlank) (depth : Nat)
    (opening : Char) (hclosing : IsClosing closing) {bs : List β}
    (hitems : ∀ i ∈ bs, Reads item (text i) (result i)) (rest : List Char) :
    ∃ inside, bracket layout depth opening closing (bs.map text) ++ rest = opening :: inside ∧
      readList item closing inside = (bs.mapM result).map fun as => (as, rest) := by
  cases bs with
  | nil =>
    refine ⟨closing :: rest, rfl, ?_⟩
    rw [readList, skipSpace_cons hclosing.isSpace_eq_false]
    simp
  | cons b bs =>
    have hgap := hlayout.lineBreak (depth + 1)
    have hskip : ∃ c tail, skipSpace (itemsText (layout.lineBreak (depth + 1))
        (layout.lineBreak depth) closing text rest b bs) = c :: tail ∧ ¬ IsClosing c :=
      exists_skipSpace_itemsText hgap bs (hitems b List.mem_cons_self).starts
    obtain ⟨c, tail, hskip, hc⟩ := hskip
    have hne : c ≠ closing := by
      rintro rfl
      exact hc hclosing
    refine ⟨_, bracket_append layout depth opening b bs, ?_⟩
    simp only [readList, hskip, if_neg hne]
    exact readItems_itemsText hclosing hgap (hlayout.lineBreak depth) hitems
      (length_lt_length_itemsText b bs)

end Lists

/-! ### Values -/

theorem printItems_eq_map (layout : Layout) (depth : Nat) (items : List Value) :
    printItems layout depth items = items.map (print layout depth) := by
  induction items with
  | nil => rfl
  | cons v rest ih => rw [printItems, ih, List.map_cons]

/-- A member as it stands in an object. -/
def memberText (layout : Layout) (depth : Nat) (m : String × Value) : List Char :=
  quote m.1 ++ ':' :: layout.afterColon ++ print layout depth m.2

theorem printMembers_eq_map (layout : Layout) (depth : Nat) (members : List (String × Value)) :
    printMembers layout depth members = members.map (memberText layout depth) := by
  induction members with
  | nil => rfl
  | cons m rest ih => rw [printMembers, ih, List.map_cons, memberText]

theorem mapM_guard {α : Type} (p : α → Prop) [DecidablePred p] (as : List α) :
    (as.mapM fun a => if p a then some a else none) =
      if ∀ a ∈ as, p a then some as else none := by
  induction as with
  | nil => simp
  | cons a as ih =>
    rw [mapM_cons, ih]
    by_cases ha : p a <;> by_cases has : ∀ a ∈ as, p a <;> simp [ha, has]

theorem reads_member {layout : Layout} (hlayout : layout.IsBlank) {limit depth : Nat}
    {m : String × Value}
    (h : Reads (readValue limit) (print layout depth m.2)
      (if m.2.depth ≤ limit then some m.2 else none)) :
    Reads (readMember (readValue limit)) (memberText layout depth m)
      (if m.2.depth ≤ limit then some m else none) := by
  refine ⟨⟨'"', _, rfl, by decide, by decide⟩, fun rest hrest => ?_⟩
  have hsplit : memberText layout depth m ++ rest =
      quote m.1 ++ (':' :: (layout.afterColon ++ (print layout depth m.2 ++ rest))) := by
    simp [memberText]
  have hvalue := h.reads_blank hlayout.afterColon hrest
  rw [hsplit]
  simp only [readMember, readString_quote, Option.bind_eq_bind, Option.bind_some,
    skipSpace_cons (show isSpace ':' = false by decide), hvalue]
  split_ifs <;> rfl

theorem readValue_eq_readScalar {s : List Char} (h : ∀ c ∈ s.head?, c ≠ '[' ∧ c ≠ '{')
    (limit : Nat) : readValue limit s = readScalar s := by
  unfold readValue
  split
  · exact absurd rfl (h '[' rfl).1
  · exact absurd rfl (h '{' rfl).2
  · rfl

theorem readScalar_of_opening {c : Char} (hc : c = '[' ∨ c = '{') (s : List Char) :
    readScalar (c :: s) = none := by
  rcases hc with rfl | rfl <;> rfl

theorem ne_of_isDigit {c d : Char} (hc : c.isDigit = true) (hd : d.isDigit = false) : c ≠ d := by
  rintro rfl
  simp [hc] at hd

theorem readScalar_of_isDigit {c : Char} (hc : c.isDigit = true) (s : List Char) :
    readScalar (c :: s) = (readNumber (c :: s)).map fun (n, rest) => (.number n, rest) := by
  unfold readScalar
  split
  · next h => exact absurd (List.cons.inj h).1 (ne_of_isDigit hc (by decide))
  · next h => exact absurd (List.cons.inj h).1 (ne_of_isDigit hc (by decide))
  · next h => exact absurd (List.cons.inj h).1 (ne_of_isDigit hc (by decide))
  · next h => exact absurd (List.cons.inj h).1 (ne_of_isDigit hc (by decide))
  · rfl

theorem reads_scalar {c : Char} {text : List Char} {v : Value}
    (hc : isSpace c = false ∧ ¬ IsClosing c ∧ c ≠ '[' ∧ c ≠ '{') (hv : v.depth = 0)
    (h : ∀ rest, EndsNumber rest → readScalar (c :: text ++ rest) = some (v, rest))
    (limit : Nat) :
    Reads (readValue limit) (c :: text) (if v.depth ≤ limit then some v else none) := by
  refine ⟨⟨c, text, rfl, hc.1, hc.2.1⟩, fun rest hrest => ?_⟩
  have hhead : ∀ d ∈ (c :: text ++ rest).head?, d ≠ '[' ∧ d ≠ '{' := by
    intro d hd
    cases hd
    exact hc.2.2
  rw [readValue_eq_readScalar hhead, h rest hrest, hv, if_pos (Nat.zero_le limit)]
  rfl

theorem reads_natural {n : Nat} (hn : n < wordLimit) (limit : Nat) :
    Reads (readValue limit) (Nat.toDigits 10 n)
      (if (Value.number (.natural n)).depth ≤ limit then some (Value.number (.natural n))
        else none) := by
  obtain ⟨c, digits, hdigits, hc⟩ := exists_toDigits_eq_cons n
  have hne : ∀ d : Char, d.isDigit = false → c ≠ d := fun d hd => ne_of_isDigit hc hd
  have hspace : isSpace c = false := by
    simp [isSpace, hne ' ' (by decide), hne '\t' (by decide), hne '\n' (by decide),
      hne '\r' (by decide)]
  have hclosing : ¬ IsClosing c := by
    rintro (h | h)
    · exact hne ']' (by decide) h
    · exact hne '}' (by decide) h
  rw [hdigits]
  refine reads_scalar ⟨hspace, hclosing, hne '[' (by decide), hne '{' (by decide)⟩ rfl
    (fun rest hrest => ?_) limit
  rw [List.cons_append, readScalar_of_isDigit hc, ← List.cons_append, ← hdigits,
    readNumber_toDigits hn hrest]
  rfl

/-- What arrays and objects have in common: a list between brackets is read back if none of its
items nests too deep for one level less. -/
theorem reads_bracket {α : Type} {layout : Layout} (hlayout : layout.IsBlank) (depth : Nat)
    {opening closing : Char} (hopening : opening = '[' ∨ opening = '{')
    (hclosing : IsClosing closing) {items : List α} {text : α → List Char} {depthOf : α → Nat}
    {item : Nat → Reader α} {build : List α → Value}
    (hread : ∀ limit s, readValue (limit + 1) (opening :: s) =
      (readList (item limit) closing s).map fun (as, rest) => (build as, rest))
    (hdepth : ∀ n, (build items).depth ≤ n + 1 ↔ ∀ a ∈ items, depthOf a ≤ n)
    (hpos : 0 < (build items).depth)
    (hitems : ∀ limit, ∀ a ∈ items,
      Reads (item limit) (text a) (if depthOf a ≤ limit then some a else none))
    (limit : Nat) :
    Reads (readValue limit) (bracket layout depth opening closing (items.map text))
      (if (build items).depth ≤ limit then some (build items) else none) := by
  refine ⟨?_, fun rest hrest => ?_⟩
  · obtain ⟨tail, htail⟩ : ∃ tail,
        bracket layout depth opening closing (items.map text) = opening :: tail := by
      cases items <;> exact ⟨_, rfl⟩
    refine ⟨opening, tail, htail, ?_, ?_⟩ <;> rcases hopening with rfl | rfl <;> decide
  · cases limit with
    | zero =>
      -- no level is left, and a scalar does not start with a bracket
      have hne : ¬ (build items).depth ≤ 0 := Nat.not_le.mpr hpos
      obtain ⟨inside, hsplit, -⟩ := readList_bracket hlayout depth opening hclosing (hitems 0) rest
      rw [hsplit, if_neg hne]
      rcases hopening with rfl | rfl <;> exact readScalar_of_opening (by decide) inside
    | succ n =>
      obtain ⟨inside, hsplit, hlist⟩ :=
        readList_bracket hlayout depth opening hclosing (hitems n) rest
      rw [hsplit, hread, hlist, mapM_guard]
      by_cases hall : ∀ a ∈ items, depthOf a ≤ n
      · rw [if_pos hall, if_pos ((hdepth n).mpr hall)]
        rfl
      · rw [if_neg hall, if_neg (mt (hdepth n).mp hall)]
        rfl

/-- A written value is read back from the front of any text that does not continue it, where it
nests no deeper than the limit, and is refused where it nests deeper. -/
theorem reads_print {layout : Layout} (hlayout : layout.IsBlank) {v : Value}
    (hv : v.AllNumbers Number.IsWord) (limit depth : Nat) :
    Reads (readValue limit) (print layout depth v)
      (if v.depth ≤ limit then some v else none) := by
  -- on the value, for all limits: what stands within it is read with one level less
  induction hv generalizing limit depth with
  | null => exact reads_scalar (by decide) rfl (fun _ _ => rfl) limit
  | bool b =>
    cases b with
    | false => exact reads_scalar (by decide) rfl (fun _ _ => rfl) limit
    | true => exact reads_scalar (by decide) rfl (fun _ _ => rfl) limit
  | number hx =>
    obtain ⟨n, rfl, hn⟩ := hx
    exact reads_natural hn limit
  | string s =>
    refine reads_scalar (by decide) rfl (fun rest _ => ?_) limit
    change (readString (quote s ++ rest)).map _ = _
    rw [readString_quote]
    rfl
  | array hitems ih =>
    rw [print, printItems_eq_map]
    exact reads_bracket hlayout depth (Or.inl rfl) (Or.inl rfl) (fun _ _ => rfl)
      (fun _ => Value.depth_array_le_iff) (Nat.succ_pos _)
      (fun n v hv => ih v hv n (depth + 1)) limit
  | object hmembers ih =>
    rw [print, printMembers_eq_map]
    exact reads_bracket hlayout depth (Or.inr rfl) (Or.inr rfl) (fun _ _ => rfl)
      (fun _ => Value.depth_object_le_iff) (Nat.succ_pos _)
      (fun n m hm => reads_member hlayout (ih m hm n (depth + 1))) limit

/-- A whole written value is read back where it nests no deeper than readers follow, with whatever
white space behind it. -/
theorem Value.parse?_print_append {layout : Layout} (hlayout : layout.IsBlank) {v : Value}
    (hv : v.AllNumbers Number.IsWord) {blank : List Char} (hblank : ∀ c ∈ blank, isSpace c = true) :
    Value.parse? (String.ofList (print layout 0 v ++ blank)) =
      if v.depth ≤ nestingLimit then some v else none := by
  have hread := reads_print hlayout hv nestingLimit 0
  have hends : EndsNumber blank := by
    simpa using endsNumber_append hblank endsNumber_nil
  have hvalue := hread.reads_blank (List.forall_mem_nil _) hends
  have hrest : skipSpace blank = [] := by
    rw [← List.append_nil blank, skipSpace_append hblank]
    rfl
  rw [List.nil_append] at hvalue
  rw [Value.parse?, String.toList_ofList, hvalue]
  split_ifs <;> simp [hrest]

theorem Value.parse?_print {layout : Layout} (hlayout : layout.IsBlank) {v : Value}
    (hv : v.AllNumbers Number.IsWord) :
    Value.parse? (String.ofList (print layout 0 v)) =
      if v.depth ≤ nestingLimit then some v else none := by
  simpa using parse?_print_append hlayout hv (List.forall_mem_nil _)

end DeclScribe.Json
