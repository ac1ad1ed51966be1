import DeclScribe.Proofs.Json.RoundTrip

/-!
The compact form stands on one line: control characters occur neither in its strings nor between
its tokens.
-/

namespace DeclScribe.Json

theorem visible_of_isDigit {c : Char} (hc : c.isDigit = true) : Visible c := by
  simp only [Char.isDigit, Bool.and_eq_true, decide_eq_true_eq] at hc
  have hle : '0'.toNat ≤ c.toNat := hc.1
  exact Nat.le_trans (by decide) hle

theorem visible_of_mem_bracket {depth : Nat} {opening closing : Char} {texts : List (List Char)}
    (hopening : Visible opening) (hclosing : Visible closing)
    (htexts : ∀ text ∈ texts, ∀ c ∈ text, Visible c) :
    ∀ c ∈ bracket .compact depth opening closing texts, Visible c := by
  cases texts with
  | nil =>
    simp only [bracket, List.forall_mem_cons]
    exact ⟨hopening, hclosing, List.forall_mem_nil _⟩
  | cons text texts =>
    -- the compact layout breaks no lines, so commas are all that joins the texts
    obtain ⟨htext, htexts⟩ := List.forall_mem_cons.mp htexts
    have hrest : ∀ c ∈ texts.flatMap fun t => ',' :: Layout.compact.lineBreak (depth + 1) ++ t,
        Visible c := by
      intro c hc
      obtain ⟨t, ht, hmem⟩ := List.mem_flatMap.mp hc
      rcases List.mem_cons.mp hmem with rfl | hmem
      · decide
      · exact htexts t ht c hmem
    simp only [bracket, List.cons_append, List.forall_mem_cons, List.forall_mem_append]
    exact ⟨hopening, ⟨⟨⟨List.forall_mem_nil _, htext⟩, hrest⟩, List.forall_mem_nil _⟩, hclosing,
      List.forall_mem_nil _⟩

theorem visible_of_all {text : List Char} (h : text.all fun c => decide (Visible c)) :
    ∀ c ∈ text, Visible c := by
  intro c hc
  exact of_decide_eq_true (List.all_eq_true.mp h c hc)

theorem visible_of_mem_print {v : Value} (hv : v.AllNumbers fun x => ∃ n, x = .natural n)
    (depth : Nat) : ∀ c ∈ print .compact depth v, Visible c := by
  induction hv generalizing depth with
  | null => exact visible_of_all rfl
  | bool b =>
    cases b with
    | false => exact visible_of_all rfl
    | true => exact visible_of_all rfl
  | number hx =>
    obtain ⟨n, rfl⟩ := hx
    intro c hc
    apply visible_of_isDigit
    exact isDigit_of_mem_toDigits hc
  | string s =>
    intro c hc
    exact visible_of_mem_quote hc
  | array hitems ih =>
    rw [print, printItems_eq_map]
    refine visible_of_mem_bracket (by decide) (by decide) (List.forall_mem_map.mpr ?_)
    intro v hv
    exact ih v hv (depth + 1)
  | object hmembers ih =>
    rw [print, printMembers_eq_map]
    refine visible_of_mem_bracket (by decide) (by decide) (List.forall_mem_map.mpr ?_)
    intro m hm
    simp only [memberText, List.forall_mem_append, List.forall_mem_cons]
    exact ⟨⟨fun c hc => visible_of_mem_quote hc, by decide, List.forall_mem_nil _⟩,
      ih m hm (depth + 1)⟩

theorem Value.not_mem_compact {v : Value} (hv : v.AllNumbers fun x => ∃ n, x = .natural n) :
    '\n' ∉ v.compact.toList := by
  intro hc
  rw [Value.compact, String.toList_ofList] at hc
  have hvisible : Visible '\n' := visible_of_mem_print hv 0 _ hc
  exact absurd hvisible (by decide)

end DeclScribe.Json
