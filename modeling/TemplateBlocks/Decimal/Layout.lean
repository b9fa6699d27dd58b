import TemplateBlocks.Decimal.Shortest

/-!
# Layouts of written numbers

How a double-precision number is laid out once its shortest digits are known. Two layouts are in
use: `Layout.json` for numbers in a document, and `Layout.plain` for numbers shown as text.
-/

namespace TemplateBlocks.Decimal

/-- The decisions of a number format. -/
structure Layout where
  /-- Which of two equally near decimals is written. -/
  tie : Tie
  /-- The exponents of the leading digit at which no exponent is written. -/
  positional : Int → Bool
  /-- Whether an integer still shows `.0`. -/
  pointed : Bool
  nan : String
  infinity : String
  negativeInfinity : String

/-- Leading exponents from `-5` to `15` are written positionally and integers keep `.0`; a
document has no spelling for numbers that are not finite, so `null` stands for them. -/
def Layout.json : Layout where
  tie := .toEven
  positional e := -5 ≤ e && e ≤ 15
  pointed := true
  nan := "null"
  infinity := "null"
  negativeInfinity := "null"

/-- No exponent is ever written, and an integer shows no point. -/
def Layout.plain : Layout where
  tie := .up
  positional _ := true
  pointed := false
  nan := "NaN"
  infinity := "inf"
  negativeInfinity := "-inf"

/-- As many zeros. -/
def zeros (n : Nat) : List Char := List.replicate n '0'

/-- Digits and the power of ten of the last one, written without exponent. -/
def positionalForm (pointed : Bool) (digits : List Char) (power : Int) : List Char :=
  let lead : Int := power + digits.length - 1
  if 0 ≤ power then digits ++ zeros power.toNat ++ (if pointed then ['.', '0'] else [])
  else if 0 ≤ lead then
    digits.take (lead.toNat + 1) ++ '.' :: digits.drop (lead.toNat + 1)
  else '0' :: '.' :: (zeros (-lead - 1).toNat ++ digits)

/-- Digits and the power of ten of the last one, written with one digit before the point and a
signed exponent. -/
def scientificForm (digits : List Char) (power : Int) : List Char :=
  let lead : Int := power + digits.length - 1
  let fraction := digits.drop 1
  digits.take 1 ++ (if fraction.isEmpty then [] else '.' :: fraction) ++
    'e' :: (if lead < 0 then '-' else '+') :: Nat.toDigits 10 lead.natAbs

/-- A magnitude, given by a finite rank. -/
def Layout.magnitude (l : Layout) (rank : Nat) : List Char :=
  if rank = 0 then positionalForm l.pointed ['0'] 0
  else
    let (c, p) := shortest l.tie rank
    let digits := Nat.toDigits 10 c
    if l.positional (p + digits.length - 1) then positionalForm l.pointed digits p
    else scientificForm digits p

/-- The text of a number. -/
def Layout.write (l : Layout) : Binary64 → String
  | .nan => l.nan
  | .signed negative rank =>
    if rank.val = Binary64.infiniteRank then if negative then l.negativeInfinity else l.infinity
    else String.ofList ((if negative then ['-'] else []) ++ l.magnitude rank.val)

/-! ### The layouts at their edges -/

example : (Binary64.ofText? "0.00001").map Layout.json.write = some "0.00001" := by decide +kernel

example : (Binary64.ofText? "1e-6").map Layout.json.write = some "1e-6" := by decide +kernel

example : (Binary64.ofText? "1e15").map Layout.json.write = some "1000000000000000.0" := by
  decide +kernel

example : (Binary64.ofText? "1e16").map Layout.json.write = some "1e+16" := by decide +kernel

example : (Binary64.ofText? "1.5e-9").map Layout.json.write = some "1.5e-9" := by decide +kernel

example : (Binary64.ofText? "-0").map Layout.plain.write = some "-0" := by decide +kernel

example : (Binary64.ofText? "1e-7").map Layout.plain.write = some "0.0000001" := by decide +kernel

end TemplateBlocks.Decimal
