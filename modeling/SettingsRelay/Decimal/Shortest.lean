import SettingsRelay.Binary.Number

/-!
# Shortest decimals

The shortest decimal of a positive number is the one with the fewest digits among the decimals
that round back to it, and of those the nearest. Coarser decimal grids have fewer digits there, so
the search starts on a grid too coarse to have a point near the number, and the first grid with a
point in the interval of all reals that round to the number gives the answer. Everything is
measured in one small unit, so the interval, the number and the grid are natural numbers.
-/

namespace SettingsRelay

/-- The number `significand * 10 ^ exponent`. -/
structure Decimal where
  significand : Nat
  exponent : Int
deriving DecidableEq, Repr

/-- What happens when two decimals of the same length are equally near. -/
inductive TieRule where
  /-- The one with the even last digit is taken. -/
  | even
  /-- The larger magnitude is taken. -/
  | away
deriving DecidableEq, Repr

/-- The reals that round to one positive number. -/
structure Basin where
  /-- Halfway to the number below. -/
  low : Nat
  value : Nat
  /-- Halfway to the number above. -/
  high : Nat
  /-- Whether the two halfway points round to the number as well. -/
  closed : Bool
  /-- The size of the finest grid's step. -/
  step : Nat
  /-- The finest grid holds the multiples of `10 ^ -depth`. -/
  depth : Nat

namespace Basin

/-- The reals that round to the number with a positive rank below infinity. Halfway points go to
even ranks. -/
def ofRank (f : BinaryFormat) (rank : Nat) : Basin :=
  let depth := f.scale / 3
  let fine := Nat.pow 10 depth
  { low := (f.units (rank - 1) + f.units rank) * fine
    value := 2 * f.units rank * fine
    high := (f.units rank + f.units (rank + 1)) * fine
    closed := rank % 2 = 0
    step := 2 * f.one
    depth }

def holds (b : Basin) (x : Nat) : Bool :=
  if b.closed then b.low ≤ x && x ≤ b.high else b.low < x && x < b.high

/-- The multiple of `grid` in the basin that is nearest to the number, if there is one. It is one
of the number's two neighbours on that grid. -/
def pointOn? (b : Basin) (tie : TieRule) (grid : Nat) : Option Nat :=
  let below := b.value / grid
  let above := below + 1
  match b.holds (below * grid), b.holds (above * grid) with
  | false, false => none
  | true, false => some below
  | false, true => some above
  | true, true =>
    let back := b.value - below * grid
    let ahead := above * grid - b.value
    if back < ahead then some below
    else if ahead < back then some above
    else match tie with
      | .even => some (if below % 2 = 0 then below else above)
      | .away => some above

/-- The first answer on the grids `10 ^ level`, `10 ^ (level - 1)`, … of the finest step. On the finest grid the
number's lower neighbour stands in, which `BinaryFormat` makes fine enough never to be needed. -/
def search (b : Basin) (tie : TieRule) : Nat → Decimal
  | 0 => ⟨(b.pointOn? tie b.step).getD (b.value / b.step), -(b.depth : Int)⟩
  | level + 1 =>
    match b.pointOn? tie (Nat.pow 10 (level + 1) * b.step) with
    | some n => ⟨n, (level + 1 : Nat) - (b.depth : Int)⟩
    | none => b.search tie level

/-- A level above which no grid has a positive point in the basin, as `8 ^ n ≤ 10 ^ n`. -/
def coarsest (b : Basin) : Nat := (b.high / b.step).log2 / 3 + 1

end Basin

/-- The shortest decimal that rounds to the number with a positive rank below infinity. -/
def Decimal.shortest (f : BinaryFormat) (tie : TieRule) (rank : Nat) : Decimal :=
  let basin := Basin.ofRank f rank
  basin.search tie basin.coarsest

end SettingsRelay
