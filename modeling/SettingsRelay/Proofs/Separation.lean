import Mathlib.Algebra.Order.Field.Rat
import Mathlib.Algebra.Order.Ring.Abs
import Mathlib.Data.Int.Order.Basic
import Mathlib.Tactic.FieldSimp
import Mathlib.Tactic.Linarith
import Mathlib.Tactic.LinearCombination
import Mathlib.Tactic.Positivity
import Mathlib.Tactic.Ring

/-!
# How far short decimals are from halfway points

Halfway between two neighbouring single precision numbers lies an odd number of up to 25 bits times a
power of two. Whether a decimal of as few bits can be near to such a point without being the point is a
question about fractions near a power of ten. For each power of ten a fraction found by continued
fractions answers it: unless the decimal is a multiple of that fraction, the two are further apart than
double precision arithmetic errs.
-/

namespace SettingsRelay

/-- A power of ten as a fraction times a power of two. -/
structure TenPower where
  numerator : Nat
  denominator : Nat
  shift : Int

namespace TenPower

def of (k : Int) : TenPower :=
  if 0 ≤ k then
    let n := 10 ^ k.toNat
    ⟨n, 2 ^ n.log2, n.log2⟩
  else
    let n := 10 ^ (-k).toNat
    ⟨2 ^ (n.log2 + 1), n, -(n.log2 + 1)⟩

theorem denominator_pos (k : Int) : 0 < (of k).denominator := by
  unfold of
  split
  · exact Nat.two_pow_pos _
  · exact Nat.pow_pos (by decide)

theorem numerator_pos (k : Int) : 0 < (of k).numerator := by
  unfold of
  split
  · exact Nat.pow_pos (by decide)
  · exact Nat.two_pow_pos _

theorem toRat_of (k : Int) : (10 : ℚ) ^ k = (of k).numerator / (of k).denominator * 2 ^ (of k).shift := by
  unfold of
  split
  · next h =>
    obtain ⟨n, rfl⟩ := Int.eq_ofNat_of_zero_le h
    simp
  · next h =>
    obtain ⟨n, hn⟩ := Int.eq_ofNat_of_zero_le (show 0 ≤ -k by omega)
    rw [hn, show k = -n by omega, zpow_neg, zpow_natCast, Int.toNat_natCast]
    dsimp only
    rw [← Int.natCast_succ, zpow_neg, zpow_natCast]
    push_cast
    field_simp

end TenPower

/-- By how much doubles may miss a decimal with that exponent, in parts of `2 ^ 60` of it: half a unit in
the last place where the power of ten is exact, and a little more than a unit where it is not. -/
def tolerance (k : Int) : Nat := if k.natAbs ≤ 22 then 128 else 257

/-- The last fraction before the denominators reach the limit among the continued fractions of a ratio. -/
def nearFraction (limit : Nat) : Nat → Nat → Nat → Nat × Nat → Nat × Nat → Nat × Nat
  | 0, _, _, _, current => current
  | fuel + 1, a, b, previous, current =>
    if b = 0 then current
    else
      let next := (a / b * current.1 + previous.1, a / b * current.2 + previous.2)
      if next.2 < limit then nearFraction limit fuel b (a % b) current next else current

/-- The decimals that double precision arithmetic cannot tell from a halfway point, as their exponent
and their significand up to factors of two. -/
def closeDecimals : List (Int × Nat) := [(-32, 14077062), (-15, 25645849)]

/-- Whether the fraction `p / q` keeps decimals with that exponent away from halfway points. -/
def Separates (k : Int) (p q : Nat) : Prop :=
  let ten := TenPower.of k
  let gap := (ten.numerator * q - ten.denominator * p) + (ten.denominator * p - ten.numerator * q)
  0 < q ∧ ten.numerator < 2 * ten.denominator ∧
    -- a decimal that is not a multiple of the fraction is off by a fraction with its denominator
    tolerance k * 2 ^ 25 * ten.numerator * q + 2 ^ 85 * gap < 2 ^ 60 * ten.numerator ∧
    -- multiples are as far off as the fraction itself, or exact, or too long, or known
    (tolerance k * ten.numerator * q < 2 ^ 60 * gap ∨ gap = 0 ∧ k.natAbs ≤ 22 ∨
      q.Coprime p ∧ (p % 2 = 0 ∨ 2 ^ 25 ≤ p ∨ 2 ^ 24 ≤ p ∧ (k, q) ∈ closeDecimals))

instance (k : Int) (p q : Nat) : Decidable (Separates k p q) := by
  unfold Separates
  infer_instance

/-- A fraction close to the ratio `a / b` crosses with everything that is as near to the ratio as `m / n`. -/
theorem crosses {a b p q n m t : Int} (ha : 0 < a) (hb : 0 < b) (hq : 0 < q) (hn : 0 ≤ n) (hbits : m < 2 ^ 25)
    (ht : 0 ≤ t) (ht' : t ≤ 257) (hclose : t * 2 ^ 25 * a * q + 2 ^ 85 * |a * q - b * p| < 2 ^ 60 * a)
    (hnear : 2 ^ 60 * |n * a - m * b| ≤ t * (n * a)) : n * p = q * m := by
  have hna : 0 ≤ n * a := mul_nonneg hn ha.le
  have hlength : n * a ≤ 2 ^ 25 * b := by
    have hbound : t * (n * a) ≤ 257 * (n * a) := mul_le_mul_of_nonneg_right ht' hna
    have hself : n * a - m * b ≤ |n * a - m * b| := le_abs_self _
    have hm : m * b ≤ (2 ^ 25 - 1) * b := mul_le_mul_of_nonneg_right (by omega) hb.le
    linarith
  by_contra hne
  have hcross : b * (n * p - q * m) = q * (n * a - m * b) - n * (a * q - b * p) := by ring
  have hwhole : b ≤ |b * (n * p - q * m)| := by
    rw [abs_mul, abs_of_pos hb]
    exact le_mul_of_one_le_right hb.le (Int.one_le_abs (sub_ne_zero.2 hne))
  have hsum : |b * (n * p - q * m)| ≤ q * |n * a - m * b| + n * |a * q - b * p| := by
    rw [hcross]
    refine (abs_sub _ _).trans ?_
    rw [abs_mul, abs_mul, abs_of_pos hq, abs_of_nonneg hn]
  have hgap : 0 ≤ |a * q - b * p| := abs_nonneg _
  have hle : b ≤ q * |n * a - m * b| + n * |a * q - b * p| := hwhole.trans hsum
  generalize |n * a - m * b| = far at *
  generalize |a * q - b * p| = gap at *
  have hscaled : 2 ^ 60 * a * b ≤ 2 ^ 60 * a * b - b :=
    calc 2 ^ 60 * a * b ≤ 2 ^ 60 * a * (q * far + n * gap) := mul_le_mul_of_nonneg_left hle (by positivity)
      _ = a * q * (2 ^ 60 * far) + 2 ^ 60 * gap * (n * a) := by ring
      _ ≤ a * q * (t * (n * a)) + 2 ^ 60 * gap * (n * a) := by gcongr
      _ = (t * a * q + 2 ^ 60 * gap) * (n * a) := by ring
      _ ≤ (t * a * q + 2 ^ 60 * gap) * (2 ^ 25 * b) := mul_le_mul_of_nonneg_left hlength (by positivity)
      _ = (t * 2 ^ 25 * a * q + 2 ^ 85 * gap) * b := by ring
      _ ≤ (2 ^ 60 * a - 1) * b := mul_le_mul_of_nonneg_right (by omega) hb.le
      _ = 2 ^ 60 * a * b - b := by ring
  omega

theorem cast_gap (x y : Nat) : ((x - y + (y - x) : Nat) : Int) = |(x - y : Int)| := by
  rcases Nat.le_total x y with hle | hle
  · rw [abs_of_nonpos (by omega)]
    omega
  · rw [abs_of_nonneg (by omega)]
    omega

/-- An odd number of up to 25 bits is either further from a scaled decimal than the tolerance, or the
decimal itself where the power of ten is exact, unless the decimal is known to be close. -/
theorem Separates.eq_or_mem {k : Int} {p q n m : Nat} (h : Separates k p q) (hn : 0 < n) (hodd : m % 2 = 1)
    (hbits : m < 2 ^ 25)
    (hnear : 2 ^ 60 * |(n * (TenPower.of k).numerator - m * (TenPower.of k).denominator : Int)| ≤
      tolerance k * (n * (TenPower.of k).numerator)) :
    n * (TenPower.of k).numerator = m * (TenPower.of k).denominator ∧ k.natAbs ≤ 22 ∨ (k, n) ∈ closeDecimals := by
  obtain ⟨hq, -, hclose, hself⟩ := h
  have hden := TenPower.denominator_pos k
  have hnum := TenPower.numerator_pos k
  have htolerance : tolerance k ≤ 257 := by unfold tolerance; split <;> decide
  generalize (TenPower.of k).numerator = a at *
  generalize (TenPower.of k).denominator = b at *
  generalize tolerance k = t at *
  have hgap := cast_gap (a * q) (b * p)
  rw [Nat.cast_mul, Nat.cast_mul] at hgap
  generalize a * q - b * p + (b * p - a * q) = gap at *
  have hcross : n * p = q * m := by
    have := crosses (a := a) (b := b) (p := p) (q := q) (n := n) (m := m) (t := t) (by omega) (by omega) (by omega)
      (by omega) (by omega) (by omega) (by omega) (by rw [← hgap]; exact_mod_cast hclose) hnear
    exact_mod_cast this
  -- where they cross, both are as far from the ratio as the fraction is
  have hfar : q * |(n * a - m * b : Int)| = n * gap := by
    have hcast : (n * p : Int) = q * m := by exact_mod_cast hcross
    have heq : (q * (n * a - m * b) : Int) = n * (a * q - b * p) := by linear_combination b * hcast
    calc (q * |(n * a - m * b : Int)| : Int) = |(q * (n * a - m * b) : Int)| := by rw [abs_mul, Nat.abs_cast]
      _ = n * |(a * q - b * p : Int)| := by rw [heq, abs_mul, Nat.abs_cast]
      _ = n * gap := by rw [hgap]
  have hm : 0 < m := by omega
  rcases hself with hfraction | ⟨hzero, hexact⟩ | ⟨hcoprime, hself⟩
  · exfalso
    have hn' : (0 : Int) < n := by omega
    have hfraction : (t * a * q : Int) < 2 ^ 60 * gap := by exact_mod_cast hfraction
    have hle := mul_le_mul_of_nonneg_left hnear (Int.natCast_nonneg q)
    have hlt := mul_lt_mul_of_pos_left hfraction hn'
    linarith
  · refine .inl ⟨?_, hexact⟩
    rw [hzero, Nat.cast_zero, mul_zero, mul_eq_zero, abs_eq_zero, sub_eq_zero] at hfar
    rcases hfar with hfar | hfar
    · omega
    · exact_mod_cast hfar
  · -- the fraction is in lowest terms, so its numerator divides the odd number
    obtain ⟨c, rfl⟩ : p ∣ m := hcoprime.symm.dvd_of_dvd_mul_left (hcross ▸ Nat.dvd_mul_left p n)
    have hp : 0 < p := Nat.pos_of_mul_pos_right hm
    have hc : 0 < c := Nat.pos_of_mul_pos_left hm
    rcases hself with heven | hlarge | ⟨hlarge, hmem⟩
    · rw [Nat.mul_mod, heven] at hodd
      omega
    · have := Nat.le_mul_of_pos_right p hc
      omega
    · have hone : c < 2 := Nat.lt_of_mul_lt_mul_left (hbits.trans_le (show 2 ^ 25 ≤ p * 2 by omega))
      obtain rfl : c = 1 := by omega
      rw [Nat.mul_one] at hcross
      obtain rfl : n = q := Nat.eq_of_mul_eq_mul_right hp hcross
      exact .inr hmem

/-- A fraction that separates, for every exponent that shortest decimals of singles have. -/
def separator (k : Int) : Nat × Nat :=
  let ten := TenPower.of k
  nearFraction 40000000 100 ten.numerator ten.denominator (0, 1) (1, 0)

theorem separates_separator {k : Int} (hlow : -49 ≤ k) (hhigh : k ≤ 38) :
    Separates k (separator k).1 (separator k).2 := by
  have htable : ∀ i < 88, Separates ((i : Nat) - 49 : Int) (separator (i - 49)).1 (separator (i - 49)).2 := by
    decide +kernel
  have hk : k = ((k + 49).toNat : Nat) - 49 := by omega
  rw [hk]
  exact htable _ (by omega)

end SettingsRelay
