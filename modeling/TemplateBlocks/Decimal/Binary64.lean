/-!
# Double-precision numbers

A number of the binary interchange format of 64 bits, kept by sign and *rank*: the magnitudes are
numbered in increasing order, zero has rank `0`, and infinity is the last. So every number but the
absent one has exactly one representation, neighbours in rank are neighbours in value, and a rank
is even exactly when its significand is.

* `Binary64.roundRank`: the rank nearest to a quotient, a tie going to the even rank;
* `Binary64.ofNat`, `Binary64.toNat`: from and to counts, the latter truncating and saturating;
* `Binary64.same`: numeric equality, for which zeros agree and the absent number differs from all.
-/

namespace TemplateBlocks

/-- How many magnitudes share an exponent: two to the power of 52. -/
def Binary64.binade : Nat := 0x10000000000000

/-- The rank of the infinite magnitude: 2047 binades lie below it. -/
def Binary64.infiniteRank : Nat := 2047 * binade

/-- The ranks of magnitudes. -/
abbrev Binary64.Rank : Type := Fin (infiniteRank + 1)

/-- A double-precision number. -/
inductive Binary64 where
  /-- The result of an undefined operation. -/
  | nan
  /-- A sign and the rank of a magnitude. -/
  | signed (negative : Bool) (rank : Binary64.Rank)
  deriving DecidableEq

namespace Binary64

/-! ### Ranks and values -/

/-- The rank of zero. -/
def zeroRank : Rank := ⟨0, Nat.succ_pos _⟩

/-- The rank of infinity. -/
def lastRank : Rank := ⟨infiniteRank, Nat.lt_succ_self _⟩

/-- The significand of a rank. -/
def significand (rank : Nat) : Nat :=
  if rank < binade then rank else binade + rank % binade

/-- The power of two that a rank's significand is multiplied by. -/
def exponent (rank : Nat) : Int :=
  if rank < binade then -1074 else (rank / binade : Nat) - 1075

/-- The quotient `num / den` divided by `2 ^ e`, as a quotient. -/
def scaled (num den : Nat) (e : Int) : Nat × Nat :=
  if 0 ≤ e then (num, den * Nat.pow 2 e.toNat) else (num * Nat.pow 2 (-e).toNat, den)

/-- The magnitude of a rank, as a quotient. -/
def ratio (rank : Nat) : Nat × Nat := scaled (significand rank) 1 (-exponent rank)

/-- The natural number nearest to a quotient, a tie going to the even one. -/
def roundHalfEven (num den : Nat) : Nat :=
  let q := num / den
  let r := num % den
  if 2 * r < den then q
  else if den < 2 * r then q + 1
  else if q % 2 = 0 then q else q + 1

/-- The exponent at which a positive quotient has a significand of 53 bits, or the least one. -/
def quotientExponent (num den : Nat) : Int :=
  let e : Int := num.log2 - den.log2 - 52
  let (n, d) := scaled num den e
  max (-1074) (if n / d < binade then e - 1 else e)

/-- The rank nearest to the quotient `num / den`, a tie going to the even rank. Quotients from
halfway between the last finite magnitude and the next power of two on go to infinity. -/
def roundRank (num den : Nat) : Rank :=
  if num = 0 then zeroRank
  else
    let e := quotientExponent num den
    let (n, d) := scaled num den e
    ⟨min (roundHalfEven n d + (e + 1074).toNat * binade) infiniteRank,
      Nat.lt_succ_of_le (Nat.min_le_right _ _)⟩

/-! ### Counts -/

/-- The number nearest to a count. -/
def ofNat (n : Nat) : Binary64 := .signed false (roundRank n 1)

/-- The number nearest to an integer. -/
def ofInt (i : Int) : Binary64 := .signed (i < 0) (roundRank i.natAbs 1)

/-- The greatest count that fits a machine word of 64 bits. -/
def greatestCount : Nat := 0xFFFFFFFFFFFFFFFF

/-- The count of a number: its fraction is dropped, negative numbers and the absent number count
as none, and a number above `greatestCount` counts as that. -/
def toNat : Binary64 → Nat
  | .nan => 0
  | .signed true _ => 0
  | .signed false rank =>
    let (n, d) := ratio rank.val
    min (n / d) greatestCount

/-! ### Comparisons -/

/-- The absent number. -/
def isNaN : Binary64 → Bool
  | .nan => true
  | .signed _ _ => false

/-- Zero, of either sign. -/
def isZero : Binary64 → Bool
  | .nan => false
  | .signed _ rank => rank.val == 0

/-- Neither infinite nor the absent number. -/
def isFinite : Binary64 → Bool
  | .nan => false
  | .signed _ rank => rank.val < infiniteRank

/-- Greater than zero. -/
def isPositive : Binary64 → Bool
  | .nan => false
  | .signed negative rank => !negative && rank.val != 0

/-- Numeric equality: the two zeros are equal, and the absent number differs from itself. -/
def same : Binary64 → Binary64 → Bool
  | .signed s r, .signed t u => (r.val == 0 && u.val == 0) || (s == t && r == u)
  | _, _ => false

example : ofNat 1 = .signed false ⟨1023 * binade, by decide⟩ := by decide

example : (ofNat 3).toNat = 3 ∧ (ofNat (2 ^ 53 + 1)).toNat = 2 ^ 53 := by decide

example : (ofNat (2 ^ 70)).toNat = greatestCount := by decide

end Binary64

end TemplateBlocks
