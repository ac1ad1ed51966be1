import DeclScribe.Json.Value

/-!
Numerals. Every numeral has a value; one that is too large for a binary double-precision
number is refused, even where its value does not matter.
-/

namespace DeclScribe.Json

/-- The parts of a numeral, each a list of digits. -/
structure Numeral where
  negative : Bool
  whole : List Char
  fraction : Option (List Char)
  exponent : Option (Bool × List Char)
deriving Repr

def digitValue (c : Char) : Nat := c.toNat - '0'.toNat

def digitsValue (digits : List Char) : Nat :=
  digits.foldl (fun n c => 10 * n + digitValue c) 0

/-- What 64 bits do not hold any more: `2 ^ 64`. -/
def wordLimit : Nat := Nat.pow 2 64

/-- Extends a significand by digits as long as it stays in range. The first number is the
significand, the second counts the digits that are left out. -/
def extendSignificand (n : Nat) : List Char → Nat × Nat
  | [] => (n, 0)
  | c :: rest =>
    if 10 * n + digitValue c < wordLimit then
      extendSignificand (10 * n + digitValue c) rest
    else (n, rest.length + 1)

/-- The natural nearest to `n` among those of 53 significant bits; a tie goes to the even one. -/
def roundToDouble (n : Nat) : Nat :=
  let bits := n.log2 + 1
  if bits ≤ 53 then n
  else
    let unit := Nat.pow 2 (bits - 53)
    let low := n / unit
    let rest := n % unit
    let up := unit < 2 * rest || (2 * rest == unit && low % 2 == 1)
    (if up then low + 1 else low) * unit

namespace Numeral

/-- The significand and the decimal exponent of a numeral. Digits of the whole part that do not
fit raise the exponent, digits of the fraction that fit lower it. -/
def scientific (x : Numeral) : Nat × Int :=
  let (whole, dropped) := extendSignificand 0 x.whole
  let fraction := x.fraction.getD []
  let (significand, unread) := extendSignificand whole fraction
  let written : Int := match x.exponent with
    | none => 0
    | some (true, digits) => -(digitsValue digits : Int)
    | some (false, digits) => digitsValue digits
  (significand, dropped - ((fraction.length - unread : Nat) : Int) + written)

/-- Whether the numeral is out of the range of double-precision numbers. The significand and the
power of ten are rounded before they are multiplied. -/
def isTooLarge (x : Numeral) : Bool :=
  match x.scientific with
  | (0, _) => false
  | (significand, .ofNat e) =>
    308 < e || Nat.pow 2 1024 ≤
      roundToDouble (roundToDouble significand * roundToDouble (Nat.pow 10 e))
  | (_, .negSucc _) => false

def text (x : Numeral) : List Char :=
  (if x.negative then ['-'] else []) ++ x.whole ++
    (match x.fraction with
      | none => []
      | some digits => '.' :: digits) ++
    match x.exponent with
    | none => []
    | some (negative, digits) => 'e' :: (if negative then ['-'] else []) ++ digits

/-- The number that the numeral denotes, if it is in range. -/
def number? (x : Numeral) : Option Number :=
  let plain := !x.negative && x.fraction.isNone && x.exponent.isNone
  if plain && digitsValue x.whole < wordLimit then
    some (.natural (digitsValue x.whole))
  else if x.isTooLarge then none
  else some (.other x.text)

end Numeral

end DeclScribe.Json
