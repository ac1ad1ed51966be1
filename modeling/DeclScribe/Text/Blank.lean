/-!
White space in text: which characters count, trimming, and splitting into words.
-/

namespace DeclScribe.Text

/-- Whether Unicode gives the character its `White_Space` property. -/
def isBlank (c : Char) : Bool :=
  let n := c.toNat
  (9 ≤ n && n ≤ 13) || n == 0x20 || n == 0x85 || n == 0xA0 || n == 0x1680 ||
    (0x2000 ≤ n && n ≤ 0x200A) || n == 0x2028 || n == 0x2029 || n == 0x202F ||
    n == 0x205F || n == 0x3000

def dropFront (p : Char → Bool) (s : List Char) : List Char := s.dropWhile p

def dropBack (p : Char → Bool) (s : List Char) : List Char :=
  (s.reverse.dropWhile p).reverse

def trim (s : String) : String :=
  String.ofList (dropBack isBlank (dropFront isBlank s.toList))

def isBlankText (s : String) : Bool := s.toList.all isBlank

/-- The maximal runs of characters other than white space, in order. -/
def words : List Char → List (List Char)
  | [] => []
  | c :: rest =>
    if isBlank c then words rest
    else match rest with
      | [] => [[c]]
      | d :: _ =>
        if isBlank d then [c] :: words rest
        else match words rest with
          | [] => [[c]]
          | w :: ws => (c :: w) :: ws

/-- The pieces between the separators, empty ones included. -/
def splitOn {α : Type} [DecidableEq α] (separator : α) : List α → List (List α)
  | [] => [[]]
  | c :: rest =>
    if c = separator then [] :: splitOn separator rest
    else match splitOn separator rest with
      | [] => [[c]]
      | piece :: pieces => (c :: piece) :: pieces

/-- The text without `piece` at its front, as often as it stands there. -/
def dropPrefixes (piece : List Char) (s : List Char) : List Char :=
  if _h : piece ≠ [] ∧ piece.isPrefixOf s then
    dropPrefixes piece (s.drop piece.length)
  else s
termination_by s.length
decreasing_by
  obtain ⟨hne, hpre⟩ := _h
  have hlen := (List.isPrefixOf_iff_prefix.mp hpre).length_le
  have hpos := List.length_pos_iff.mpr hne
  simp only [List.length_drop]
  omega

end DeclScribe.Text
