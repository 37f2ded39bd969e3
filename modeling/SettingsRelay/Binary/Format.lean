/-!
# Binary number formats

A binary format stores a sign, an exponent field and a fraction field. Without the sign, the
stored bits read as one natural number are the *rank* of a magnitude: a larger rank is a larger
magnitude, consecutive ranks are neighbouring numbers, and infinity is the rank after the greatest
number. Every number is a whole multiple of the least positive one, so a rank stands for `units`
of it, and rounding a ratio to the nearest number is exact arithmetic on natural numbers.
-/

namespace SettingsRelay

/-- A binary number format, given by the widths of its two magnitude fields. -/
structure BinaryFormat where
  fractionBits : Nat
  exponentBits : Nat
deriving DecidableEq, Repr

namespace BinaryFormat

def single : BinaryFormat := ⟨23, 8⟩

def double : BinaryFormat := ⟨52, 11⟩

def width (f : BinaryFormat) : Nat := 1 + f.exponentBits + f.fractionBits

/-- The least positive number of the format is `2 ^ -scale`. -/
def scale (f : BinaryFormat) : Nat := Nat.pow 2 (f.exponentBits - 1) + f.fractionBits - 2

/-- The units of the number one. -/
def one (f : BinaryFormat) : Nat := Nat.pow 2 f.scale

/-- How many ranks have the same exponent field. -/
def binade (f : BinaryFormat) : Nat := Nat.pow 2 f.fractionBits

/-- The rank of infinity: the exponent field is full and the fraction is empty. -/
def infinity (f : BinaryFormat) : Nat := (Nat.pow 2 f.exponentBits - 1) * f.binade

/-- The weight of the sign among the bits of a datum. -/
def signWeight (f : BinaryFormat) : Nat := Nat.pow 2 (f.exponentBits + f.fractionBits)

/-- The magnitude of a rank, counted in least positive numbers. Infinity counts as the number that
would follow the greatest one, which is what rounding compares with. -/
def units (f : BinaryFormat) (rank : Nat) : Nat :=
  let exponent := rank / f.binade
  let fraction := rank % f.binade
  if exponent = 0 then fraction else (f.binade + fraction) * Nat.pow 2 (exponent - 1)

/-- The greatest rank whose units do not exceed `n`. -/
def rankBelow (f : BinaryFormat) (n : Nat) : Nat :=
  let shift := n.log2 - f.fractionBits
  n / Nat.pow 2 shift + shift * f.binade

/-- The rank nearest to the ratio `num / den`. A ratio halfway between two neighbours goes to the
even rank, and one at or beyond the halfway point above the greatest number goes to infinity. -/
def nearestRank (f : BinaryFormat) (num den : Nat) : Nat :=
  let scaled := num * f.one
  let below := f.rankBelow (scaled / den)
  let midpoint := (f.units below + f.units (below + 1)) * den
  let rank :=
    if 2 * scaled < midpoint then below
    else if 2 * scaled = midpoint then below + below % 2
    else below + 1
  min rank f.infinity

theorem units_eq_self {f : BinaryFormat} {rank : Nat} (h : rank < f.binade) :
    f.units rank = rank := by
  simp [units, Nat.div_eq_of_lt h, Nat.mod_eq_of_lt h]

theorem nearestRank_le (f : BinaryFormat) (num den : Nat) : f.nearestRank num den ≤ f.infinity :=
  Nat.min_le_right ..

end BinaryFormat

end SettingsRelay
