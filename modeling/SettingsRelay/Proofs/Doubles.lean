import SettingsRelay.Proofs.Evaluation

/-!
# Doubles come back nearly

The digits of a double need more than the 53 bits that a double has, and most powers of ten are rounded
when a reader takes them for doubles. What a reader makes of the shortest decimal of a double is a few
numbers away from it at most, and it is that double where neither the digits nor the power are rounded.
-/

namespace SettingsRelay

open BinaryFormat

/-! ## Two divisions -/

theorem shrink_of_le (x : Double) {n : Nat} (h : n ≤ 308) : shrink x n = x / .ofNat (Nat.pow 10 n) := by
  rw [shrink, if_pos h]

theorem shrink_of_lt {x : Double} (hx : x.isZero = false) {n : Nat} (h : greatestExponent < n) :
    shrink x n = shrink (shrink x greatestExponent) (n - greatestExponent) := by
  have hgreatest : 308 = greatestExponent := rfl
  rw [shrink_of_le x hgreatest.ge, shrink, if_neg (by omega), if_neg (by rw [hx]; decide), hgreatest]

/-- Small decimals are divided by the greatest power of ten first, and the quotient is rounded. -/
theorem scaled?_of_lt {m : Nat} (hpos : 0 < m) (hfits : m < UInt64.size) {exponent : Int}
    (h : exponent < -greatestExponent) :
    scaled? m exponent =
      (scaled? m (-greatestExponent)).map fun x => shrink x (-exponent - greatestExponent).toNat := by
  have hbound : m ≤ greatestPower := le_greatestPower hfits
  have hnonzero : (Binary.ofNat m : Double).isZero = false :=
    Binary.isZero_ofRank false (doubleRank_lt hbound) (doubleRank_ne_zero hpos hbound)
  have hneg : -(greatestExponent : Int) < 0 := by decide
  have hfirst : (-(-(greatestExponent : Int))).toNat = greatestExponent := by omega
  have hsecond : (-exponent).toNat - greatestExponent = (-exponent - greatestExponent).toNat := by omega
  rw [scaled?, if_pos (h.trans hneg), scaled?, if_pos hneg, Option.map_some, shrink_of_lt hnonzero (by omega),
    hfirst, hsecond]

/-- The errors of some roundings, and a little more. -/
def roundings (n : Nat) : ℚ := 1001 / 1000 * n * roundoff

namespace Decimal

theorem scaled?_close_of_ge {d : Decimal} (hpos : 0 < d.significand) (hfits : d.significand < UInt64.size)
    (hlow : -greatestExponent ≤ d.exponent) (hhigh : d.exponent ≤ greatestExponent) :
    ∃ num den : Nat, 0 < den ∧ IsWithin (roundings 2) (num / den) d.toRat ∧
      (double.nearestRank num den < double.infinity →
        scaled? d.significand d.exponent = some (.ofRank false (double.nearestRank num den))) := by
  have hbound : d.significand ≤ greatestPower := le_greatestPower hfits
  have hpower : d.exponent.natAbs ≤ greatestExponent := by omega
  obtain ⟨num, den, hden, hwithin, hscaled⟩ := scaled?_near hfits hlow hhigh (double_within hpos hbound)
    (double_within (Nat.pow_pos (by decide)) (pow_le_greatestPower hpower)) (by norm_num [roundoff])
    (by norm_num [roundoff]) (by norm_num [roundoff])
  exact ⟨num, den, hden, hwithin.mono d.toRat_nonneg (by norm_num [roundings, roundoff]), hscaled⟩

/-- The first quotient is a number with all its bits, unless the significand is very small. -/
theorem quotient_close {m : Nat} (hlarge : 3 ≤ m) (hfits : m < UInt64.size) :
    ∃ rank, scaled? m (-greatestExponent) = some (.ofRank false rank) ∧ rank < double.infinity ∧
      IsWithin (roundings 3) (double.magnitude rank) (m * 10 ^ (-greatestExponent : Int)) := by
  obtain ⟨num, den, hden, hwithin, hscaled⟩ := scaled?_close_of_ge (d := ⟨m, -greatestExponent⟩)
    (show 0 < m by omega) hfits le_rfl (show -(greatestExponent : Int) ≤ greatestExponent by decide)
  have hpower : (10 : ℚ) ^ (-greatestExponent : Int) = (greatestPower : ℚ)⁻¹ := by
    rw [zpow_neg, zpow_natCast, greatestPower, Nat.cast_pow]
    rfl
  rw [toRat] at hwithin
  dsimp only at hwithin hscaled
  rw [hpower] at hwithin ⊢
  have hroom : 2 * m ≤ greatestPower := two_mul_le_greatestPower hfits
  have hP : (0 : ℚ) < greatestPower := Nat.cast_pos.2 (by omega)
  have hm : (3 : ℚ) ≤ m ∧ 2 * (m : ℚ) ≤ greatestPower := by
    constructor
    · exact_mod_cast hlarge
    · exact_mod_cast hroom
  have hlow : 29 / 10 * (greatestPower : ℚ)⁻¹ ≤ num / den :=
    calc (29 / 10 * (greatestPower : ℚ)⁻¹ : ℚ) ≤ (1 - roundings 2) * 3 * (greatestPower : ℚ)⁻¹ :=
          mul_le_mul_of_nonneg_right (by norm_num [roundings, roundoff]) (by positivity)
      _ ≤ (1 - roundings 2) * m * (greatestPower : ℚ)⁻¹ := by
          have : 0 ≤ 1 - roundings 2 := by norm_num [roundings, roundoff]
          gcongr
          exact hm.1
      _ ≤ num / den := by
          rw [mul_assoc]
          exact hwithin.bounds.1
  have hhigh : (num / den : ℚ) ≤ greatestPower :=
    calc (num / den : ℚ) ≤ (1 + roundings 2) * (m * (greatestPower : ℚ)⁻¹) := hwithin.bounds.2
      _ ≤ 2 * (m * (greatestPower : ℚ)⁻¹) :=
          mul_le_mul_of_nonneg_right (by norm_num [roundings, roundoff]) (by positivity)
      _ = 2 * m * (greatestPower : ℚ)⁻¹ := (mul_assoc _ _ _).symm
      _ ≤ 1 := (mul_inv_le_iff₀ hP).2 (by rw [one_mul]; exact hm.2)
      _ ≤ greatestPower := Nat.one_le_cast.2 (Nat.pow_pos (by decide))
  obtain ⟨hfinite, hrounded⟩ := double_rounded hden hlow hhigh hwithin
  refine ⟨_, hscaled hfinite, hfinite, hrounded.mono ?_ ?_⟩
  · exact mul_nonneg (Nat.cast_nonneg m) (inv_nonneg.2 hP.le)
  · norm_num [roundings, roundoff]

theorem scaled?_close_of_lt {d : Decimal} (hlarge : 3 ≤ d.significand) (hfits : d.significand < UInt64.size)
    (hlow : -324 ≤ d.exponent) (hhigh : d.exponent < -greatestExponent) :
    ∃ num den : Nat, 0 < den ∧ IsWithin (roundings 3) (num / den) d.toRat ∧
      scaled? d.significand d.exponent = some (.ofRank false (double.nearestRank num den)) := by
  obtain ⟨rank, hscaled, hrank, hwithin⟩ := quotient_close hlarge hfits
  have hgreatest : greatestExponent = 308 := rfl
  obtain ⟨j, hj⟩ : ∃ j : Nat, -d.exponent - greatestExponent = j :=
    ⟨(-d.exponent - greatestExponent).toNat, by omega⟩
  have hpower : 10 ^ j ≤ greatestPower := pow_le_greatestPower (by omega)
  have hnonzero : doubleRank (10 ^ j) ≠ 0 := doubleRank_ne_zero (Nat.pow_pos (by decide)) hpower
  have hexact : double.magnitude (doubleRank (10 ^ j)) = (10 ^ j : Nat) := double_exact_pow (by omega)
  refine ⟨double.units rank, double.units (doubleRank (10 ^ j)), double.units_pos (Nat.pos_of_ne_zero hnonzero),
    ?_, ?_⟩
  · have hratio : (double.units rank / double.units (doubleRank (10 ^ j)) : ℚ) =
        double.magnitude rank * ((10 ^ j : Nat) : ℚ)⁻¹ := by
      rw [← hexact, magnitude, magnitude, inv_div, div_mul_div_comm, mul_comm (double.one : ℚ),
        mul_div_mul_right _ _ (Nat.cast_ne_zero.2 double.one_pos.ne')]
    have hvalue : d.toRat = d.significand * 10 ^ (-greatestExponent : Int) * ((10 ^ j : Nat) : ℚ)⁻¹ := by
      rw [toRat, show d.exponent = -greatestExponent - j by omega, zpow_sub₀ (by norm_num), zpow_natCast,
        Nat.cast_pow, mul_assoc, div_eq_mul_inv]
      rfl
    rw [hratio, hvalue]
    exact hwithin.scale (by positivity)
  · rw [scaled?_of_lt (by omega) hfits hhigh, hscaled, Option.map_some, hj, Int.toNat_natCast,
      shrink_of_le _ (by omega)]
    exact congrArg some (Binary.div_ofRank false false hrank (doubleRank_lt hpower) hnonzero)

theorem scaled?_of_tiny : ∀ m < 3, ∀ j < 16, scaled? m (-(309 + j : Nat)) =
    some (.ofRank false (double.nearestRank m (10 ^ (309 + j)))) := by
  decide +kernel

/-- What a reader makes of a decimal is one rounding of a ratio that is close to it. -/
theorem scaled?_close {d : Decimal} (hpos : 0 < d.significand) (hfits : d.significand < UInt64.size)
    (hlow : -324 ≤ d.exponent) (hhigh : d.exponent ≤ 308) :
    ∃ num den : Nat, 0 < den ∧ IsWithin (roundings 3) (num / den) d.toRat ∧
      (double.nearestRank num den < double.infinity →
        scaled? d.significand d.exponent = some (.ofRank false (double.nearestRank num den))) := by
  have hgreatest : (greatestExponent : Int) = 308 := rfl
  rcases lt_or_ge d.exponent (-greatestExponent) with hsmall | hlarge
  · rcases Nat.lt_or_ge d.significand 3 with htiny | hsignificand
    · refine ⟨d.numerator, d.denominator, d.denominator_pos, ?_, fun _ => ?_⟩
      · rw [← toRat_eq_div]
        exact (IsWithin.refl _).mono d.toRat_nonneg (by norm_num [roundings, roundoff])
      · obtain ⟨j, hj⟩ : ∃ j : Nat, -d.exponent = (309 + j : Nat) := ⟨(-d.exponent - 309).toNat, by omega⟩
        have htable := scaled?_of_tiny d.significand htiny j (by omega)
        rw [numerator, denominator, hj, Int.toNat_natCast, show d.exponent.toNat = 0 by omega, Nat.pow_zero,
          Nat.mul_one, show d.exponent = -(309 + j : Nat) by omega]
        exact htable
    · obtain ⟨num, den, hden, hwithin, hscaled⟩ := scaled?_close_of_lt hsignificand hfits hlow hsmall
      exact ⟨num, den, hden, hwithin, fun _ => hscaled⟩
  · obtain ⟨num, den, hden, hwithin, hscaled⟩ := scaled?_close_of_ge hpos hfits hlarge (by omega)
    exact ⟨num, den, hden, hwithin.mono d.toRat_nonneg (by norm_num [roundings, roundoff]), hscaled⟩

/-! ## The shortest decimal of a double -/

variable {rank : Nat}

theorem exponent_shortest_double (hpos : 0 < rank) (hrank : rank < double.infinity) :
    -324 ≤ (shortest double .even rank).exponent ∧ (shortest double .even rank).exponent ≤ 308 :=
  ⟨exponent_shortest_ge spans.2 .even rank, exponent_shortest_le spans.2 .even hpos hrank⟩

theorem reading_shortest_double (hpos : 0 < rank) (hrank : rank < double.infinity) :
    let d := DecimalLayout.reading (-5) 15 (shortest double .even rank)
    0 < d.significand ∧ d.significand < UInt64.size ∧ -324 ≤ d.exponent ∧ d.exponent ≤ 308 := by
  obtain ⟨hlow, hhigh⟩ := exponent_shortest_double hpos hrank
  have hsignificand : 0 < (shortest double .even rank).significand := significand_shortest_pos isFine_double hpos
  have hbound := significand_shortest_le isFine_double .even rank
  have hfits : 40 * double.binade < UInt64.size := by decide
  rcases DecimalLayout.reading_cases (-5) 15 (shortest double .even rank) with hsame | ⟨-, hexponent, hle, hlt⟩
  · rw [hsame]
    exact ⟨hsignificand, hbound.trans_lt hfits, hlow, hhigh⟩
  · dsimp only
    rw [hexponent]
    exact ⟨hsignificand.trans_le hle, hlt.trans (by decide), by decide, by decide⟩

end Decimal

namespace Binary

open Decimal

variable {rank : Nat}

/-- A double that is read from a decimal is not changed any more. -/
theorem nearestRank_units {f : BinaryFormat} (hrank : rank ≤ f.infinity) :
    f.nearestRank (f.units rank) f.one = rank :=
  nearestRank_of_exact f.one_pos hrank rfl

/-- What a reader makes of the shortest decimal of a double. -/
def reread? (rank : Nat) : Option Double :=
  let d := DecimalLayout.reading (-5) 15 (.shortest double .even rank)
  scaled? d.significand d.exponent

theorem restored?_of_reread? {rank' : Nat} (hpos : 0 < rank) (hrank : rank < double.infinity)
    (hrank' : rank' < double.infinity) (h : reread? rank = some (ofRank false rank')) (negative : Bool) :
    (ofRank negative rank : Double).restored? (-5) 15 = some (ofRank negative rank') := by
  obtain ⟨-, hfits, -, -⟩ := reading_shortest_double hpos hrank
  rw [restored?_ofRank hpos hrank hfits hrank' h, nearestRank_units hrank'.le]

/-- Up to the last few numbers before infinity, what comes back is a number nearby. -/
theorem restored?_double_of_lt (hpos : 0 < rank) (hrank : rank + 4 < double.infinity) (negative : Bool) :
    ∃ rank' < double.infinity, (ofRank negative rank : Double).restored? (-5) 15 = some (ofRank negative rank') ∧
      rank' ≤ rank + 4 ∧ rank ≤ rank' + 4 := by
  have hlt : rank < double.infinity := by omega
  obtain ⟨hsignificand, hfits, hlow, hhigh⟩ := reading_shortest_double hpos hlt
  obtain ⟨num, den, hden, hwithin, hscaled⟩ := scaled?_close hsignificand hfits hlow hhigh
  rw [toRat_reading] at hwithin
  obtain ⟨hfloor, hceiling⟩ := toRat_shortest_bounds isFine_double .even rank
  obtain ⟨hbelow, habove⟩ := nearestRank_close hden hlt.le hfloor hceiling hwithin (n := 4)
    (by norm_num [roundings, roundoff]) (by norm_num [roundings, roundoff, binade, double])
  have hfinite : double.nearestRank num den < double.infinity := by omega
  exact ⟨_, hfinite, restored?_of_reread? hpos hlt hfinite (hscaled hfinite) negative, hbelow, habove⟩

/-- The least numbers come back, and the greatest ones do not become infinite. -/
theorem reread?_extreme :
    (∀ rank < 5, 0 < rank → reread? rank = some (ofRank false rank)) ∧
    ∀ i < 4, reread? (double.infinity - 4 + i) = some (ofRank false (double.infinity - 4 + i + (i + 1) % 2)) := by
  decide +kernel

/-- A double whose decimal has exact digits and an exact power of ten comes back. -/
theorem restored?_of_short {least greatest : Int} {negative : Bool} (hpos : 0 < rank)
    (hrank : rank < double.infinity)
    (hbits : (DecimalLayout.reading least greatest (.shortest double .even rank)).significand < 2 ^ 53)
    (hexponent : (DecimalLayout.reading least greatest (.shortest double .even rank)).exponent.natAbs ≤ 22) :
    (ofRank negative rank : Double).restored? least greatest = some (ofRank negative rank) := by
  obtain ⟨hscaled, hfinite⟩ := scaled?_of_short hbits hexponent
  have hratio := toRat_eq_div (DecimalLayout.reading least greatest (.shortest double .even rank))
  rw [toRat_reading] at hratio
  rw [restored?_ofRank hpos hrank (hbits.trans (by decide)) hfinite hscaled, nearestRank_units hfinite.le,
    nearestRank_congr (denominator_pos _) (denominator_pos _) (ratio_eq (denominator_pos _) hratio.symm),
    (surrounds_shortest isFine_double .even rank).nearestRank_eq (denominator_pos _) hrank.le]

/-- Every positive double comes back as a positive double that is at most four numbers away. -/
theorem restored?_double (hpos : 0 < rank) (hrank : rank < double.infinity) (negative : Bool) :
    ∃ rank', 0 < rank' ∧ rank' < double.infinity ∧
      (ofRank negative rank : Double).restored? (-5) 15 = some (ofRank negative rank') ∧
      rank' ≤ rank + 4 ∧ rank ≤ rank' + 4 := by
  rcases Nat.lt_or_ge rank 5 with hleast | hlarge
  · have hsame := restored?_of_reread? hpos hrank hrank (reread?_extreme.1 rank hleast hpos) negative
    exact ⟨rank, hpos, hrank, hsame, by omega, by omega⟩
  rcases Nat.lt_or_ge (rank + 4) double.infinity with hsmall | hgreatest
  · obtain ⟨rank', hfinite, hrestored, hbelow, habove⟩ := restored?_double_of_lt hpos hsmall negative
    exact ⟨rank', by omega, hfinite, hrestored, hbelow, habove⟩
  · obtain ⟨i, hi, rfl⟩ : ∃ i < 4, rank = double.infinity - 4 + i := ⟨rank + 4 - double.infinity, by omega, by omega⟩
    have hfinite : double.infinity - 4 + i + (i + 1) % 2 < double.infinity := by omega
    have hnear := restored?_of_reread? hpos hrank hfinite (reread?_extreme.2 i hi) negative
    exact ⟨_, by omega, hfinite, hnear, by omega, by omega⟩

end Binary

end SettingsRelay
