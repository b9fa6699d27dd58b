import TemplateBlocks.Decimal.Numeral

/-!
# Shortest decimals

The decimal with the fewest digits that reads back as a given magnitude, and of those the nearest
one. On each grid `10 ^ p`, from the coarsest that matters to the finest, the two neighbours of the
magnitude are tried; the first grid with a neighbour that reads back decides.
-/

namespace TemplateBlocks.Decimal

/-- Which of two equally near neighbours is taken. -/
inductive Tie where
  | toEven
  | up
  deriving DecidableEq

/-- The quotient `num / den` divided by `10 ^ p`, as a quotient. -/
def scaledByTen (num den : Nat) (p : Int) : Nat × Nat :=
  if 0 ≤ p then (num, den * Nat.pow 10 p.toNat) else (num * Nat.pow 10 (-p).toNat, den)

/-- The greatest `e` with `10 ^ e ≤ num / den`, for a positive quotient: the binary logarithm
leaves three candidates. -/
def leadingPlace (num den : Nat) : Int :=
  let binary : Int := num.log2 - den.log2
  let guess := (binary * 30103).fdiv 100000
  let reached (e : Int) : Bool :=
    let (n, d) := scaledByTen num den e
    d ≤ n
  if reached (guess + 1) then guess + 1 else if reached guess then guess else guess - 1

/-- The neighbour of `num / den` on the grid `10 ^ p` that reads back as `rank`, if one does. -/
def onGrid? (tie : Tie) (rank num den : Nat) (p : Int) : Option Nat :=
  let (n, d) := scaledByTen num den p
  let low := n / d
  let twice := 2 * (n % d)
  let reads (c : Nat) : Bool := (Decimal.rank c p).val == rank
  match reads low, reads (low + 1) with
  | false, false => none
  | true, false => some low
  | false, true => some (low + 1)
  | true, true =>
    if twice < d then some low
    else if d < twice then some (low + 1)
    else if tie = .toEven ∧ low % 2 = 0 then some low
    else some (low + 1)

/-- Drops the zeros at the end of a significand, raising the exponent. -/
def dropZeros : Nat → Nat → Int → Nat × Int
  | 0, c, p => (c, p)
  | fuel + 1, c, p => if c ≠ 0 ∧ c % 10 = 0 then dropZeros fuel (c / 10) (p + 1) else (c, p)

/-- The significand and exponent of the shortest decimal for a positive finite rank. Seventeen
digits always suffice. -/
def shortest (tie : Tie) (rank : Nat) : Nat × Int :=
  let (num, den) := Binary64.ratio rank
  let e := leadingPlace num den
  let found := (List.range 17).findSome? fun (i : Nat) =>
    let p := e - i
    (onGrid? tie rank num den p).map fun c => dropZeros 20 c p
  found.getD (0, 0)

example : shortest .toEven (Binary64.roundRank 1 10).val = (1, -1) := by decide +kernel

example : shortest .toEven 1 = (5, -324) := by decide +kernel

example : shortest .toEven (Binary64.roundRank (2 ^ 53) 1).val = (9007199254740992, 0) := by
  decide +kernel

end TemplateBlocks.Decimal
