import SettingsRelay.Binary.Format

/-!
# Binary numbers

A datum of a format is either not a number or a sign with a rank. Two data are the same exactly
when they have the same bits, and `equals` compares them as numbers: zeros of either sign are
equal and what is not a number equals nothing, not even itself.
-/

namespace SettingsRelay

/-- A datum of format `f`. All bit patterns that are not numbers count as one. -/
inductive Binary (f : BinaryFormat) where
  | nan
  | number (negative : Bool) (rank : Fin (f.infinity + 1))
deriving DecidableEq

abbrev Single := Binary .single

abbrev Double := Binary .double

namespace Binary

variable {f : BinaryFormat}

/-- The number of a sign and a rank, where ranks beyond infinity count as infinity. -/
def ofRank (negative : Bool) (rank : Nat) : Binary f :=
  .number negative ⟨min rank f.infinity, by omega⟩

def zero (negative : Bool) : Binary f := ofRank negative 0

def infinity (negative : Bool) : Binary f := ofRank negative f.infinity

instance : Inhabited (Binary f) := ⟨zero false⟩

/-- The number nearest to a signed ratio, for a positive `den`. -/
def ofRatio (negative : Bool) (num den : Nat) : Binary f :=
  ofRank negative (f.nearestRank num den)

/-- Neither infinite nor something that is not a number. -/
def isFinite : Binary f → Bool
  | nan => false
  | number _ rank => rank < f.infinity

/-- Zero of either sign. -/
def isZero : Binary f → Bool
  | nan => false
  | number _ rank => rank.val = 0

/-- Less than zero. A zero with a sign is not. -/
def isNegative : Binary f → Bool
  | nan => false
  | number negative rank => negative && rank.val ≠ 0

def equals : Binary f → Binary f → Bool
  | number s a, number t b => a = b && (s = t || a.val = 0)
  | _, _ => false

def ofBits (f : BinaryFormat) (bits : Nat) : Binary f :=
  let rank := bits % f.signWeight
  if h : rank < f.infinity + 1 then .number (bits / f.signWeight % 2 = 1) ⟨rank, h⟩ else .nan

/-- The bit pattern of a number; what is not a number has no pattern of its own. -/
def bits? : Binary f → Option Nat
  | nan => none
  | number negative rank => some ((if negative then f.signWeight else 0) + rank)

@[simp] theorem isZero_zero (s : Bool) : (zero s : Binary f).isZero = true := by
  simp [zero, ofRank, isZero]

@[simp] theorem isFinite_infinity (s : Bool) : (infinity s : Binary f).isFinite = false := by
  simp [infinity, ofRank, isFinite]

end Binary

end SettingsRelay
