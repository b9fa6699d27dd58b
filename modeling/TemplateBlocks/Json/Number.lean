import TemplateBlocks.Json.Basic

/-!
# Numbers in documents

What a document admits as a number and which value it has. A number without point and exponent that
fits a machine word is an integer. Any other number is read in two steps, each of which rounds: the
digits make a whole number of at most 64 bits, further digits being dropped, and that is multiplied
or divided by a power of ten. A number too large for double precision is illegible.
-/

namespace TemplateBlocks.Json

/-! ### Arithmetic on ranks -/

/-- The rank nearest to a product. -/
def mulRank (a b : Nat) : Binary64.Rank :=
  let (n, d) := Binary64.ratio a
  let (m, c) := Binary64.ratio b
  Binary64.roundRank (n * m) (d * c)

/-- The rank nearest to a quotient, for a divisor that is not zero. -/
def divRank (a b : Nat) : Binary64.Rank :=
  let (n, d) := Binary64.ratio a
  let (m, c) := Binary64.ratio b
  Binary64.roundRank (n * c) (d * m)

/-- The rank nearest to a power of ten. -/
def powerRank (places : Nat) : Nat := (Binary64.roundRank (Nat.pow 10 places) 1).val

/-- The greatest power of ten in double precision. -/
def greatestPower : Nat := 308

/-- Divides by a power of ten, by the greatest one as long as more places are asked for. Nothing is
left of a number of 64 bits after the second such division, so a few rounds suffice. -/
def divideByPower : (rounds : Nat) → (rank places : Nat) → Binary64.Rank
  | 0, _, _ => Binary64.zeroRank
  | rounds + 1, rank, places =>
    if places ≤ greatestPower then divRank rank (powerRank places)
    else if rank = 0 then Binary64.zeroRank
    else divideByPower rounds (divRank rank (powerRank greatestPower)).val (places - greatestPower)

/-- A significand times a power of ten, rounded after each step; nothing if it is too large. -/
def scaleByPower? (significand : Nat) (power : Int) : Option Binary64.Rank :=
  let rank := (Binary64.roundRank significand 1).val
  if power < 0 then some (divideByPower 4 rank power.natAbs)
  else if significand = 0 then some Binary64.zeroRank
  else if greatestPower < power.natAbs then none
  else
    let r := mulRank rank (powerRank power.natAbs)
    if r.val = Binary64.infiniteRank then none else some r

/-! ### Numerals -/

/-- What a document admits: a whole part without needless zeros, and digits after every point and
exponent mark. -/
def admits (n : Numeral) : Bool :=
  let whole :=
    match n.whole with
    | [] => false
    | ['0'] => true
    | c :: _ => c != '0'
  let fraction := n.fraction.all fun ds => !ds.isEmpty
  let power := n.power.all fun p => !p.2.isEmpty
  whole && fraction && power

/-- Takes digits into a significand as long as it fits 64 bits, and leaves the others. -/
def takeDigits (significand : Nat) : List Char → Nat × List Char
  | [] => (significand, [])
  | c :: cs =>
    let next := 10 * significand + (c.toNat - 48)
    if next ≤ Binary64.greatestCount then takeDigits next cs else (significand, c :: cs)

/-- The integer that a numeral spells, if it has no point and no exponent and fits a word. The
numeral `-0` spells none, since its sign would be lost. -/
def integer? (n : Numeral) : Option Int :=
  match n.isInteger, takeDigits 0 n.whole with
  | true, (significand, []) =>
    if !n.negative then some significand
    else if 0 < significand ∧ significand ≤ 0x8000000000000000 then some (-significand)
    else none
  | _, _ => none

/-- The real number that a numeral spells. A whole digit that is left over still counts as a place,
a fraction digit that is left over does not. -/
def real? (n : Numeral) : Option Binary64 :=
  let (whole, places) := takeDigits 0 n.whole
  let fraction := n.fraction.getD []
  let (significand, unread) := takeDigits whole fraction
  let power : Int := n.value.exponent + fraction.length
  let taken : Int := fraction.length - unread.length
  (scaleByPower? significand (places.length - taken + power)).map (.signed n.negative)

/-- The value of a numeral that a document admits. -/
def numeralValue (n : Numeral) : Json :=
  match integer? n with
  | some i => .int i
  | none =>
    match real? n with
    | some x => .real x
    | none => .illegible

end TemplateBlocks.Json
