import DeclScribe.Glob.Token

/-!
Reading glob patterns.
-/

namespace DeclScribe.Glob

/-! ### Classes -/

/-- What is read of a class: its ranges, last first, whether it is still empty, and whether the
last character was the dash of a range. -/
structure ClassState where
  ranges : List (Char × Char) := []
  isFirst : Bool := true
  inRange : Bool := false

/-- Adds a character: as the end of the last range behind a dash, else as itself. -/
def ClassState.add (st : ClassState) (c : Char) : Except Fault ClassState :=
  match st.inRange, st.ranges with
  | true, (first, _) :: more =>
    if c < first then .error (.invalidRange first c) else .ok ⟨(first, c) :: more, false, false⟩
  | _, ranges => .ok ⟨(c, c) :: ranges, false, false⟩

/-- The ranges of a class, in order. A dash at the end stands for itself. -/
def ClassState.finish (st : ClassState) : List (Char × Char) :=
  (if st.inRange then ('-', '-') :: st.ranges else st.ranges).reverse

/-- Reads the rest of a class, up to its closing bracket. A closing bracket and a dash that stand
first stand for themselves. -/
def readClass (st : ClassState) : List Char → Except Fault (List (Char × Char) × List Char)
  | [] => .error .unclosedClass
  | c :: s =>
    if c = ']' && !st.isFirst then .ok (st.finish, s)
    else if c = '-' && !st.isFirst && !st.inRange then readClass { st with inRange := true } s
    else match st.add c with
      | .error fault => .error fault
      | .ok st => readClass st s

theorem length_lt_of_readClass {st : ClassState} {s rest : List Char}
    {ranges : List (Char × Char)} (h : readClass st s = .ok (ranges, rest)) :
    rest.length < s.length := by
  induction s generalizing st with
  | nil => simp [readClass] at h
  | cons c s ih =>
    unfold readClass at h
    split at h
    · simp only [Except.ok.injEq, Prod.mk.injEq] at h
      simp [h.2]
    · split at h
      · exact Nat.lt_succ_of_lt (ih h)
      · split at h
        · simp at h
        · exact Nat.lt_succ_of_lt (ih h)

def readWholeClass : List Char → Except Fault (Token × List Char)
  | '!' :: s | '^' :: s => (readClass {} s).map fun (ranges, rest) => (.oneOf true ranges, rest)
  | s => (readClass {} s).map fun (ranges, rest) => (.oneOf false ranges, rest)

theorem length_lt_of_readWholeClass {s rest : List Char} {token : Token}
    (h : readWholeClass s = .ok (token, rest)) : rest.length < s.length := by
  have map_ok {negated : Bool} {s : List Char}
      (h : (readClass {} s).map (fun (ranges, rest) => (Token.oneOf negated ranges, rest)) =
        .ok (token, rest)) : rest.length < s.length := by
    cases hr : readClass {} s with
    | error fault => simp [hr, Except.map] at h
    | ok found =>
      simp only [hr, Except.map, Except.ok.injEq, Prod.mk.injEq] at h
      exact h.2 ▸ length_lt_of_readClass hr
  unfold readWholeClass at h
  split at h
  · exact Nat.lt_succ_of_lt (map_ok h)
  · exact Nat.lt_succ_of_lt (map_ok h)
  · exact map_ok h

/-! ### Patterns -/

/-- A choice that is being read: its finished branches, last first, and what stands before it, last
first. -/
structure Group where
  branches : List (List Token)
  before : List Token

/-- What is read of a pattern: the branch that is being read, last token first, the choices around
it, innermost first, and whether a bracket has been met that is never closed. Behind such a bracket
no bracket opens a class. -/
structure PatternState where
  current : List Token := []
  groups : List Group := []
  bare : Bool := false

namespace PatternState

def push (st : PatternState) (t : Token) : PatternState := { st with current := t :: st.current }

def openGroup (st : PatternState) : PatternState :=
  { st with current := [], groups := ⟨[], st.current⟩ :: st.groups }

/-- Begins the next branch of the innermost choice. Outside of choices a comma is a literal. -/
def nextBranch (st : PatternState) : PatternState :=
  match st.groups with
  | [] => st.push (.literal ',')
  | g :: groups =>
    { st with
      current := []
      groups := { g with branches := st.current.reverse :: g.branches } :: groups }

def closeGroup? (st : PatternState) : Option PatternState :=
  match st.groups with
  | [] => none
  | g :: groups =>
    some { st with
      current := .choice (st.current.reverse :: g.branches).reverse :: g.before
      groups := groups }

/-- Two stars that are no component of their own are like one. -/
def pushRuns (st : PatternState) : PatternState := (st.push .run).push .run

/-- Two stars behind a slash take the place of the slash, or join the stars before it. -/
def pushDirectories (st : PatternState) (atEnd : Bool) : PatternState :=
  match st.current with
  | .leading :: _ | .trailing :: _ => st
  | current =>
    { st with current := (if atEnd then .trailing else .between) :: current.tail }

def pushBare (st : PatternState) : PatternState := { st.push (.literal '[') with bare := true }

/-- Whether a component of the path begins behind the character `before`: behind a slash, and in a
choice at the front of a branch. -/
def behindSlash (st : PatternState) (before : Option Char) : Bool :=
  before == some '/' ||
    (!st.groups.isEmpty && (before == some ',' || before == some '\x7b'))

/-- Reads on after `**`, which stands behind the character `before`. The result is the new state,
the last character that is read, and the rest. -/
def doubleStar (st : PatternState) (before : Option Char) (s : List Char) :
    PatternState × Char × List Char :=
  match st.current.isEmpty, st.behindSlash before, s with
  | true, _, [] => (st.push .leading, '*', [])
  | true, _, '/' :: rest => (st.push .leading, '/', rest)
  | false, true, [] => (st.pushDirectories true, '*', [])
  | false, true, '/' :: rest => (st.pushDirectories false, '/', rest)
  | false, true, c :: rest =>
    if !st.groups.isEmpty && (c == ',' || c == '\x7d') then
      (st.pushDirectories true, '*', c :: rest)
    else (st.pushRuns, '*', c :: rest)
  | _, _, s => (st.pushRuns, '*', s)

theorem length_doubleStar_le (st : PatternState) (before : Option Char) (s : List Char) :
    (st.doubleStar before s).2.2.length ≤ s.length := by
  unfold doubleStar
  split <;> try simp
  split <;> simp

/-- Reads on after an opening bracket. The result is the new state, the last character that is read,
and the rest. -/
def bracket (style : Style) (st : PatternState) (s : List Char) :
    Except Fault (PatternState × Char × List Char) :=
  if st.bare then .ok (st.push (.literal '['), '[', s)
  else match readWholeClass s with
    | .ok (token, rest) => .ok (st.push token, ']', rest)
    | .error .unclosedClass =>
      if style.bareBrackets then .ok (st.pushBare, '[', s) else .error .unclosedClass
    | .error fault => .error fault

theorem length_bracket_le {style : Style} {st : PatternState} {s : List Char}
    {next : PatternState × Char × List Char} (h : st.bracket style s = .ok next) :
    next.2.2.length ≤ s.length := by
  unfold bracket at h
  split at h
  · obtain rfl := Except.ok.inj h
    exact Nat.le_refl _
  · split at h
    · rename_i hr
      obtain rfl := Except.ok.inj h
      exact Nat.le_of_lt (length_lt_of_readWholeClass hr)
    · split at h
      · obtain rfl := Except.ok.inj h
        exact Nat.le_refl _
      · simp at h
    · simp at h

end PatternState

def readPattern (style : Style) (st : PatternState) (before : Option Char) :
    List Char → Except Fault (List Token)
  | [] => if st.groups.isEmpty then .ok st.current.reverse else .error .unclosedChoice
  | '?' :: s => readPattern style (st.push .any) (some '?') s
  | '*' :: '*' :: s =>
    let next := st.doubleStar before s
    readPattern style next.1 (some next.2.1) next.2.2
  | '*' :: s => readPattern style (st.push .run) (some '*') s
  | '[' :: s =>
    match _h : st.bracket style s with
    | .error fault => .error fault
    | .ok next => readPattern style next.1 (some next.2.1) next.2.2
  | '\x7b' :: s => readPattern style st.openGroup (some '\x7b') s
  | '\x7d' :: s =>
    match st.closeGroup? with
    | none => .error .unopenedChoice
    | some st => readPattern style st (some '\x7d') s
  | ',' :: s => readPattern style st.nextBranch (some ',') s
  | ['\\'] => .error .danglingEscape
  | '\\' :: c :: s => readPattern style (st.push (.literal c)) (some c) s
  | c :: s => readPattern style (st.push (.literal c)) (some c) s
termination_by s => s.length
decreasing_by
  all_goals simp only [List.length_cons]
  all_goals try omega
  · have := PatternState.length_doubleStar_le st before s
    omega
  · have := PatternState.length_bracket_le _h
    omega

def readTokens (style : Style) (pattern : String) : Except Fault (List Token) :=
  readPattern style {} none pattern.toList

end DeclScribe.Glob
