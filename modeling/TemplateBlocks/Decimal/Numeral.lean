import TemplateBlocks.Decimal.Binary64

/-!
# Decimal numerals

The text of a number cut into sign, whole digits, fraction digits and exponent, its value as a
significand and a power of ten, and the double-precision number nearest to that.

What a format admits (leading zeros, a bare point, …) is decided by the format on the cut pieces.
-/

namespace TemplateBlocks

/-- The value `± significand · 10 ^ exponent`. -/
structure Decimal where
  negative : Bool
  significand : Nat
  exponent : Int
  deriving DecidableEq

/-- The pieces of a written number. -/
structure Numeral where
  negative : Bool
  whole : List Char
  /-- The digits after the point, if there is a point. -/
  fraction : Option (List Char)
  /-- The sign and digits of the exponent, if there is one. -/
  power : Option (Bool × List Char)
  deriving DecidableEq

/-- The number that a list of digits spells. -/
def digitsValue (ds : List Char) : Nat :=
  ds.foldl (fun n c => 10 * n + (c.toNat - 48)) 0

namespace Numeral

/-- An optional sign. -/
def cutSign : List Char → Bool × List Char
  | '-' :: r => (true, r)
  | '+' :: r => (false, r)
  | r => (false, r)

/-- The fraction digits, where a point follows. -/
def cutFraction : List Char → Option (List Char) × List Char
  | '.' :: r => (some (r.takeWhile Char.isDigit), r.dropWhile Char.isDigit)
  | r => (none, r)

/-- The exponent, where its mark follows. -/
def cutPower : List Char → Option (Bool × List Char) × List Char
  | c :: r =>
    if c = 'e' ∨ c = 'E' then
      let (negative, r) := cutSign r
      (some (negative, r.takeWhile Char.isDigit), r.dropWhile Char.isDigit)
    else (none, c :: r)
  | [] => (none, [])

/-- The pieces of an unsigned number at the front of a text, and what follows it. -/
def cut (negative : Bool) (cs : List Char) : Numeral × List Char :=
  let whole := cs.takeWhile Char.isDigit
  let (fraction, rest) := cutFraction (cs.dropWhile Char.isDigit)
  let (power, rest) := cutPower rest
  (⟨negative, whole, fraction, power⟩, rest)

/-- The value that the pieces spell. -/
def value (n : Numeral) : Decimal :=
  let fraction := n.fraction.getD []
  let power : Int :=
    match n.power with
    | none => 0
    | some (negative, ds) => if negative then -digitsValue ds else digitsValue ds
  ⟨n.negative, digitsValue (n.whole ++ fraction), power - fraction.length⟩

/-- A number without point and exponent. -/
def isInteger (n : Numeral) : Bool := n.fraction.isNone && n.power.isNone

end Numeral

namespace Decimal

/-- The rank nearest to `significand · 10 ^ exponent`. Values of `10 ^ 310` and more are infinite
and values below `10 ^ -330` vanish, so powers of ten outside these bounds are never formed. -/
def rank (significand : Nat) (exponent : Int) : Binary64.Rank :=
  let places : Int := (Nat.toDigits 10 significand).length
  if significand = 0 ∨ places + exponent < -330 then Binary64.zeroRank
  else if 310 < places + exponent then Binary64.lastRank
  else if 0 ≤ exponent then Binary64.roundRank (significand * Nat.pow 10 exponent.toNat) 1
  else Binary64.roundRank significand (Nat.pow 10 (-exponent).toNat)

/-- The double-precision number nearest to a decimal value. -/
def toBinary64 (d : Decimal) : Binary64 := .signed d.negative (rank d.significand d.exponent)

end Decimal

/-- Reads a free-standing number: an optional sign, digits with an optional point among or around
them, an optional exponent; or `NaN`, `inf`, `-inf`. -/
def Binary64.ofText? (s : String) : Option Binary64 :=
  if s = "NaN" then some .nan
  else if s = "inf" then some (.signed false lastRank)
  else if s = "-inf" then some (.signed true lastRank)
  else
    let (negative, cs) := Numeral.cutSign s.toList
    let (n, rest) := Numeral.cut negative cs
    let spelled := n.whole ≠ [] ∨ (n.fraction.getD []) ≠ []
    let powered := n.power.all fun p => !p.2.isEmpty
    if rest = [] ∧ spelled ∧ powered then some n.value.toBinary64 else none

example : Binary64.ofText? "-0.5" = some (.signed true ⟨1022 * Binary64.binade, by decide⟩) := by
  decide +kernel

example : Binary64.ofText? "5e-324" = some (.signed false ⟨1, by decide⟩) := by decide +kernel

end TemplateBlocks
