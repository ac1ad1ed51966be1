import DeclScribe.Proofs.Glob

/-!
Braces in braces. Each pair of braces adds one level to the expression of a pattern, so there is a
number of pairs from which on the pattern can be read but not used.
-/

namespace DeclScribe.Glob

/-- A letter in so many choices of one branch. -/
def nestedToken : Nat → Token
  | 0 => .literal 'A'
  | n + 1 => .choice [[nestedToken n]]

/-- A letter in so many pairs of braces. -/
def nestedPattern (n : Nat) : String :=
  String.ofList (List.replicate n '\x7b' ++ 'A' :: List.replicate n '\x7d')

variable {style : Style} {before : Option Char}

/-- Closing braces put what is read into the choices that are open. -/
theorem readPattern_closing (n k : Nat) :
    readPattern style ⟨[nestedToken k], List.replicate n ⟨[], []⟩, false⟩ before
      (List.replicate n '\x7d') = .ok [nestedToken (n + k)] := by
  induction n generalizing k before with
  | zero => simp [readPattern]
  | succ n ih =>
    have hclose : PatternState.closeGroup?
        ⟨[nestedToken k], List.replicate (n + 1) ⟨[], []⟩, false⟩ =
          some ⟨[nestedToken (k + 1)], List.replicate n ⟨[], []⟩, false⟩ := rfl
    have hcount : n + 1 + k = n + (k + 1) := by omega
    rw [hcount, ← ih (k + 1)]
    change readPattern style _ before ('\x7d' :: List.replicate n '\x7d') = _
    rw [readPattern, hclose]

/-- Opening braces open as many choices. -/
theorem readPattern_opening (n m : Nat) :
    readPattern style ⟨[], List.replicate m ⟨[], []⟩, false⟩ before
      (List.replicate n '\x7b' ++ 'A' :: List.replicate (n + m) '\x7d') =
        .ok [nestedToken (n + m)] := by
  induction n generalizing m before with
  | zero =>
    rw [List.replicate_zero, List.nil_append, Nat.zero_add, readPattern]
    · exact readPattern_closing m 0
    all_goals simp
  | succ n ih =>
    have hcount : n + 1 + m = n + (m + 1) := by omega
    rw [hcount, ← ih (m + 1), List.replicate_succ, List.cons_append, readPattern]
    rfl

theorem parse_nestedPattern (n : Nat) :
    parse style (nestedPattern n) = .ok ⟨[nestedToken n], style.crossing⟩ := by
  have hread : readTokens style (nestedPattern n) = .ok [nestedToken n] := by
    rw [readTokens, nestedPattern, String.toList_ofList]
    exact readPattern_opening n 0
  rw [parse, hread]
  rfl

theorem depths_nestedToken (crossing : Bool) (n : Nat) :
    ((nestedToken n).expression crossing).depths = [n] := by
  induction n with
  | zero => rfl
  | succ n ih =>
    have hbranch : (sequenceExpression crossing [nestedToken n]).depths = [n] := by
      rw [sequenceExpression]
      change ((nestedToken n).expression crossing).depths ++ [] = [n]
      rw [List.append_nil, ih]
    have hbranches : branchExpressions crossing [[nestedToken n]] =
        [sequenceExpression crossing [nestedToken n]] := by
      simp [branchExpressions, hbranch]
    rw [nestedToken, Token.expression, hbranches]
    simp [Expression.ofChoice, Expression.depth, hbranch, Expression.depthOf, Nat.add_comm]

theorem depth_patternExpression (n : Nat) :
    (patternExpression true [nestedToken (n + 1)]).depth = n + 2 := by
  have hdepths : (patternExpression true [nestedToken (n + 1)]).depths =
      [0, 0] ++ (((nestedToken (n + 1)).expression true).depths ++ []) ++ [0] := rfl
  rw [Expression.depth, hdepths, depths_nestedToken]
  simp [Expression.depthOf, Expression.deepest]
  omega

/-- A letter in braces can be used up to a number of pairs. -/
theorem isValid_nestedPattern_iff {n : Nat} : IsValid (nestedPattern n) ↔ n < depthLimit := by
  have hvalid : IsValid (nestedPattern n) ↔ isTooDeep ⟨[nestedToken n], true⟩ = false := by
    simp [IsValid, parse_nestedPattern, Style.selecting]
  rw [hvalid]
  cases n with
  | zero => decide
  | succ n =>
    calc isTooDeep ⟨[nestedToken (n + 1)], true⟩ = false
      _ ↔ decide (depthLimit < (patternExpression true [nestedToken (n + 1)]).depth) = false :=
        Iff.rfl
      _ ↔ n + 1 < depthLimit := by
        rw [depth_patternExpression, decide_eq_false_iff_not]
        omega

end DeclScribe.Glob
