import SettingsRelay.Proofs.Evaluation
import SettingsRelay.Proofs.Separation

/-!
# Singles come back

The shortest decimal of a single precision number has at most nine digits, so double precision has it
almost exactly. It is the right number after all: only a decimal next to a point halfway between two
numbers could be read as the wrong one, and there are few such decimals.
-/

namespace SettingsRelay

namespace Decimal

open BinaryFormat

/-! ## Close decimals -/

/-- The decimals that double precision arithmetic cannot tell from a halfway point of singles. -/
def confusing : List Decimal := [⟨14077062, -32⟩, ⟨7038531, -32⟩, ⟨25645849, -15⟩]

theorem mem_confusing {n j : Nat} {k : Int} (h : (k, n * 2 ^ j) ∈ closeDecimals) : ⟨n, k⟩ ∈ confusing := by
  rcases j with _ | _ | j
  · simp only [closeDecimals, List.mem_cons, Prod.mk.injEq, List.not_mem_nil, or_false, pow_zero, mul_one] at h
    rcases h with ⟨rfl, rfl⟩ | ⟨rfl, rfl⟩ <;> decide
  · simp only [closeDecimals, List.mem_cons, Prod.mk.injEq, List.not_mem_nil, or_false, zero_add, pow_one] at h
    obtain ⟨rfl, rfl⟩ : k = -32 ∧ n = 7038531 := by omega
    decide
  · rw [show n * 2 ^ (j + 2) = 4 * (n * 2 ^ j) by ring] at h
    simp only [closeDecimals, List.mem_cons, Prod.mk.injEq, List.not_mem_nil, or_false] at h
    omega

/-- A decimal near to a point halfway between singles is that point, or one that is known. -/
theorem eq_or_confusing {d : Decimal} {m e : Nat} (hpos : 0 < d.significand) (hlow : -49 ≤ d.exponent)
    (hhigh : d.exponent ≤ 38) (hodd : m % 2 = 1) (hbits : m < 2 ^ 25)
    (hcoarse : (2 : ℚ) ^ e ≤ 10 ^ d.exponent * 2 ^ 150)
    (hnear : 2 ^ 60 * |2 ^ 150 * d.toRat - m * 2 ^ e| ≤ tolerance d.exponent * (2 ^ 150 * d.toRat)) :
    2 ^ 150 * d.toRat = m * 2 ^ e ∧ d.exponent.natAbs ≤ 22 ∨ d ∈ confusing := by
  obtain ⟨n, k⟩ := d
  have hseparates := separates_separator hlow hhigh
  have hden : (0 : ℚ) < (TenPower.of k).denominator := Nat.cast_pos.2 (TenPower.denominator_pos k)
  have hratio : ((TenPower.of k).numerator : ℚ) < 2 * (TenPower.of k).denominator := by
    exact_mod_cast hseparates.2.1
  rw [toRat] at hnear ⊢
  dsimp only at *
  rw [TenPower.toRat_of] at hcoarse hnear ⊢
  have hself := fun N => hseparates.eq_or_mem (n := N) (m := m)
  generalize ((TenPower.of k).numerator) = a at *
  generalize ((TenPower.of k).denominator) = b at *
  generalize (TenPower.of k).shift = s at *
  -- the power of two that is left over goes to the significand
  obtain ⟨j, hj⟩ : ∃ j : Nat, s + 150 = e + j := by
    have hlt : (2 : ℚ) ^ (e : Int) < 2 ^ (s + 151) :=
      calc (2 : ℚ) ^ (e : Int) ≤ a / b * 2 ^ s * 2 ^ 150 := by rw [zpow_natCast]; exact hcoarse
        _ < 2 * 2 ^ s * 2 ^ 150 :=
          mul_lt_mul_of_pos_right (mul_lt_mul_of_pos_right ((div_lt_iff₀ hden).2 hratio) (zpow_pos (by norm_num) s))
            (by norm_num)
        _ = 2 ^ (s + 151) := by rw [zpow_add₀ (by norm_num)]; norm_num; ring
    have := (zpow_lt_zpow_iff_right₀ (by norm_num)).1 hlt
    exact ⟨(s + 150 - e).toNat, by omega⟩
  have hpower : (2 : ℚ) ^ s * 2 ^ 150 = 2 ^ j * 2 ^ e := by
    rw [← zpow_natCast 2 j, ← zpow_natCast 2 e, ← zpow_add₀ (by norm_num), Int.add_comm j, ← hj,
      zpow_add₀ (by norm_num)]
    norm_num
  have hpoint : 2 ^ 150 * (n * (a / b * 2 ^ s)) = ((n * 2 ^ j : Nat) : ℚ) * a * (2 ^ e / b) := by
    push_cast
    linear_combination (n * (a / b) : ℚ) * hpower
  have hhalf : (m * 2 ^ e : ℚ) = m * b * (2 ^ e / b) := by field_simp
  have hunit : (0 : ℚ) < 2 ^ e / b := by positivity
  rw [hpoint, hhalf] at hnear ⊢
  rw [← sub_mul, abs_mul, abs_of_pos hunit, ← mul_assoc, ← mul_assoc] at hnear
  have hscaled := le_of_mul_le_mul_right hnear hunit
  rcases hself (n * 2 ^ j) (by positivity) hodd hbits (by exact_mod_cast hscaled) with ⟨heq, hexact⟩ | hmem
  · refine .inl ⟨?_, hexact⟩
    rw [← Nat.cast_mul, heq, Nat.cast_mul]
  · exact .inr (mem_confusing hmem)

theorem tolerance_le (k : Int) : (tolerance k : ℚ) ≤ 257 := by
  unfold tolerance
  split <;> norm_num

theorem tolerance_mono {k k' : Int} (h : k'.natAbs ≤ 22 → k.natAbs ≤ 22) : tolerance k ≤ tolerance k' := by
  unfold tolerance
  split
  · split <;> decide
  · next hk => rw [if_neg fun hk' => hk (h hk')]

/-- A decimal of moderate size is read with an error of about one or two roundings. -/
theorem scaled?_within {d : Decimal} (hpos : 0 < d.significand) (hbits : d.significand < 2 ^ 53)
    (hexponent : d.exponent.natAbs ≤ 60) :
    ∃ rank, scaled? d.significand d.exponent = some (.ofRank false rank) ∧ rank < double.infinity ∧
      IsWithin (tolerance d.exponent / 2 ^ 60) (double.magnitude rank) d.toRat := by
  have hfits : d.significand < UInt64.size := hbits.trans (by decide)
  have hrange : -(greatestExponent : Int) ≤ d.exponent ∧ d.exponent ≤ greatestExponent := by
    unfold greatestExponent
    omega
  let ε : ℚ := if d.exponent.natAbs ≤ 22 then 0 else roundoff
  have hε : 0 ≤ ε ∧ ε ≤ roundoff ∧ roundoff + (ε / (1 - ε)) + roundoff * (ε / (1 - ε)) ≤
      tolerance d.exponent / 2 ^ 60 := by
    simp only [ε, tolerance, roundoff]
    split <;> norm_num
  have hpower :
      IsWithin ε (double.magnitude (doubleRank (10 ^ d.exponent.natAbs))) (10 ^ d.exponent.natAbs : Nat) := by
    simp only [ε]
    split
    · next h =>
      rw [show double.magnitude (doubleRank (10 ^ d.exponent.natAbs)) = _ from double_exact_pow h]
      exact .refl _
    · exact double_within (Nat.pow_pos (by decide)) (pow_le_greatestPower (by unfold greatestExponent; omega))
  obtain ⟨num, den, hden, hnear, hscaled⟩ := scaled?_near hfits hrange.1 hrange.2
    (δ := 0) (ε := ε) (by rw [magnitude_doubleRank hbits]; exact .refl _) hpower le_rfl hε.1
    (hε.2.1.trans_lt (by norm_num [roundoff]))
  rw [zero_add, zero_mul, add_zero] at hnear
  generalize ε / (1 - ε) = η at *
  have hη : η ≤ 1 / 2 := by
    have htotal := hε.2.2.trans (div_le_div_of_nonneg_right (tolerance_le d.exponent) (by norm_num))
    simp only [roundoff] at htotal
    linarith
  obtain ⟨hlow, hhigh⟩ := toRat_bounds hpos hexponent
  have hsmall : 29 / 10 * (greatestPower : ℚ)⁻¹ ≤ num / den :=
    calc (29 / 10 * (greatestPower : ℚ)⁻¹ : ℚ) ≤ 29 / 10 * (10 ^ 61)⁻¹ :=
          mul_le_mul_of_nonneg_left (inv_greatestPower_le (by decide)) (by norm_num)
      _ ≤ 1 / 2 * 10 ^ (-60 : Int) := by norm_num
      _ ≤ (1 - η) * d.toRat := mul_le_mul (by linarith) hlow (by positivity) (by linarith)
      _ ≤ num / den := hnear.bounds.1
  have hlarge : (num / den : ℚ) ≤ greatestPower := by
    have hbits' : (d.significand : ℚ) ≤ 2 ^ 53 := by exact_mod_cast hbits.le
    calc (num / den : ℚ) ≤ (1 + η) * d.toRat := hnear.bounds.2
      _ ≤ 2 * d.toRat := mul_le_mul_of_nonneg_right (by linarith) d.toRat_nonneg
      _ ≤ 2 * (d.significand * 10 ^ 60) := mul_le_mul_of_nonneg_left hhigh (by norm_num)
      _ ≤ 2 * (2 ^ 53 * 10 ^ 60) := by gcongr
      _ ≤ 10 ^ 77 := by norm_num
      _ ≤ greatestPower := by exact_mod_cast pow_le_greatestPower (j := 77) (by decide)
  obtain ⟨hfinite, hrounded⟩ := double_rounded hden hsmall hlarge hnear
  exact ⟨_, hscaled hfinite, hfinite, hrounded.mono d.toRat_nonneg hε.2.2⟩

section Single

variable {rank : Nat}

theorem two_mul_one_single : (2 * single.one : ℚ) = 2 ^ 150 := by
  norm_num [one, scale, single]

theorem exponent_shortest_single (hpos : 0 < rank) (hrank : rank < single.infinity) :
    -46 ≤ (shortest single .even rank).exponent ∧ (shortest single .even rank).exponent ≤ 38 :=
  ⟨exponent_shortest_ge spans.1 .even rank, exponent_shortest_le spans.1 .even hpos hrank⟩

/-- Where a shortest decimal is near to a point halfway to a neighbour, that point is an odd multiple of
a power of two no greater than the power of ten. -/
theorem shortest_near {point : Nat} (hpos : 0 < rank) (hrank : rank < single.infinity)
    (hpoint : point = single.floor rank ∨ point = single.ceiling rank)
    (hnear : 2 ^ 60 * |2 ^ 150 * (shortest single .even rank).toRat - point| ≤
      tolerance (shortest single .even rank).exponent * (2 ^ 150 * (shortest single .even rank).toRat)) :
    2 ^ 150 * (shortest single .even rank).toRat = point ∧ (shortest single .even rank).exponent.natAbs ≤ 22 ∨
      shortest single .even rank ∈ confusing := by
  obtain ⟨hlow, hhigh⟩ := exponent_shortest_single hpos hrank
  obtain ⟨hceiling, hfloor⟩ := shortest_coarse isFine_single .even hpos
  have htolerance := tolerance_le (shortest single .even rank).exponent
  have hsignificand : 0 < (shortest single .even rank).significand := significand_shortest_pos isFine_single hpos
  rw [two_mul_one_single] at hceiling hfloor
  generalize shortest single .even rank = d at *
  have hnonneg : 0 ≤ 2 ^ 150 * d.toRat := mul_nonneg (by norm_num) d.toRat_nonneg
  have hrelative : tolerance d.exponent * (2 ^ 150 * d.toRat) ≤ 257 * (2 ^ 150 * d.toRat) :=
    mul_le_mul_of_nonneg_right htolerance hnonneg
  -- either point lies above a rank, and the decimal's grid is as coarse as the numbers from there
  obtain ⟨side, hside, hcoarse⟩ : ∃ side, single.ceiling side = point ∧
      (8 * |2 ^ 150 * d.toRat - (point : ℚ)| ≤ (single.spacing side : ℚ) →
        (single.spacing side : ℚ) ≤ 10 ^ d.exponent * 2 ^ 150) := by
    rcases hpoint with rfl | rfl
    · refine ⟨rank - 1, ceiling_sub_one hpos, fun h => hfloor (le_trans ?_ h)⟩
      exact mul_le_mul_of_nonneg_left (le_abs_self _) (by norm_num)
    · refine ⟨rank, rfl, fun h => hceiling (le_trans ?_ h)⟩
      rw [abs_sub_comm]
      exact mul_le_mul_of_nonneg_left (le_abs_self _) (by norm_num)
  obtain ⟨m, hodd, hbits, hm⟩ := ceiling_cases single side
  have hbits : m < 2 ^ 25 := hbits
  have hpower : (single.spacing side : ℚ) = 2 ^ (side / single.binade - 1) := by
    rw [spacing, Nat.cast_pow, Nat.cast_ofNat]
  have hcast : (point : ℚ) = m * 2 ^ (side / single.binade - 1) := by
    rw [← hside, hm, Nat.cast_mul, hpower]
  rw [hpower] at hcoarse
  rw [hcast] at hcoarse hnear ⊢
  refine eq_or_confusing hsignificand (by omega) hhigh hodd hbits (hcoarse ?_) hnear
  have hm : (m : ℚ) ≤ 2 ^ 25 := by exact_mod_cast hbits.le
  have hbound : m * (2 : ℚ) ^ (side / single.binade - 1) ≤ 2 ^ 25 * 2 ^ (side / single.binade - 1) :=
    mul_le_mul_of_nonneg_right hm (by positivity)
  obtain ⟨hle, hge⟩ := abs_le.1 (le_refl |2 ^ 150 * d.toRat - m * 2 ^ (side / single.binade - 1)|)
  linarith

theorem reading_shortest (hpos : 0 < rank) (hrank : rank < single.infinity) :
    let d := DecimalLayout.reading (-6) 12 (shortest single .even rank)
    0 < d.significand ∧ d.significand < 2 ^ 53 ∧ d.exponent.natAbs ≤ 60 ∧
      ((shortest single .even rank).exponent.natAbs ≤ 22 → d.exponent.natAbs ≤ 22) := by
  obtain ⟨hlow, hhigh⟩ := exponent_shortest_single hpos hrank
  have hsignificand : 0 < (shortest single .even rank).significand := significand_shortest_pos isFine_single hpos
  have hbound := significand_shortest_le isFine_single .even rank
  rw [show single.binade = 2 ^ 23 by decide] at hbound
  rcases DecimalLayout.reading_cases (-6) 12 (shortest single .even rank) with hsame | ⟨hnonneg, hexponent, hle, hlt⟩
  · rw [hsame]
    exact ⟨hsignificand, by omega, by omega, id⟩
  · dsimp only
    rw [hexponent]
    exact ⟨hsignificand.trans_le hle, hlt.trans (by decide), by decide, fun _ => by decide⟩

/-- A decimal at a point halfway between singles is a double. -/
theorem units_nearestRank_of_halfway {d : Decimal} {m e : Nat} (hbits : m < 2 ^ 25)
    (hpoint : 2 ^ 150 * d.toRat = m * 2 ^ e) (hlarge : d.toRat ≤ 10 ^ 77) :
    double.units (double.nearestRank d.numerator d.denominator) * d.denominator = d.numerator * double.one := by
  have hlength : m < 2 * double.binade := hbits.trans (by decide)
  obtain ⟨rank, hrank⟩ := double.exists_units_eq hlength (e + 924)
  have hone : (double.one : ℚ) = 2 ^ 924 * 2 ^ 150 := by
    rw [← pow_add, one, Nat.pow_eq, Nat.cast_pow]
    rfl
  have hvalue : (double.units rank : ℚ) = d.toRat * double.one := by
    rw [hrank, hone, Nat.cast_mul, Nat.cast_pow, Nat.cast_ofNat, pow_add]
    generalize (2 : ℚ) ^ 924 = rest
    linear_combination -rest * hpoint
  have hexact : double.units rank * d.denominator = d.numerator * double.one := by
    have hden : (d.denominator : ℚ) ≠ 0 := Nat.cast_ne_zero.2 d.denominator_pos.ne'
    rw [← Nat.cast_inj (R := ℚ), Nat.cast_mul, Nat.cast_mul, hvalue, toRat_eq_div, div_mul_eq_mul_div,
      div_mul_cancel₀ _ hden]
  have hfinite : rank ≤ double.infinity := by
    have hgreatest : 10 ^ 77 * double.one ≤ double.units double.infinity :=
      (Nat.mul_le_mul_right _ (pow_le_greatestPower (by decide))).trans greatestPower_le_units
    refine double.units_strictMono.le_iff_le.1 (le_trans ?_ hgreatest)
    rw [← Nat.cast_le (α := ℚ), hvalue, Nat.cast_mul, Nat.cast_pow, Nat.cast_ofNat]
    exact mul_le_mul_of_nonneg_right hlarge (Nat.cast_nonneg _)
  rwa [nearestRank_of_exact d.denominator_pos hfinite hexact]

end Single

end Decimal

namespace Binary

open BinaryFormat Decimal

variable {d : Decimal} {rank result : Nat}

/-! ## From the reader's double to the single -/

/-- The confusing decimals are read as the right singles. -/
theorem convert_confusing : ∀ d ∈ confusing, (scaled? d.significand d.exponent).map convert =
    some (ofRank false (single.nearestRank d.numerator d.denominator) : Single) := by
  decide +kernel

theorem reading_confusing : ∀ d ∈ confusing, DecimalLayout.reading (-6) 12 d = d := by
  decide

theorem nearestRank_of_confusing (hmem : d ∈ confusing) (hresult : result < double.infinity)
    (hscaled : scaled? d.significand d.exponent = some (ofRank false result)) :
    single.nearestRank (double.units result) double.one = single.nearestRank d.numerator d.denominator := by
  have hconvert := convert_confusing d hmem
  rw [hscaled, Option.map_some, convert_ofRank false hresult] at hconvert
  exact ofRank_inj (nearestRank_le ..) (nearestRank_le ..) (Option.some.inj hconvert)

/-- A decimal at a halfway point is read without any error. -/
theorem nearestRank_of_halfway {side : Nat} (hbits : d.significand < 2 ^ 53) (hexponent : d.exponent.natAbs ≤ 22)
    (hpos : 0 < d.significand) (hresult : result < double.infinity)
    (hscaled : scaled? d.significand d.exponent = some (ofRank false result))
    (hpoint : 2 ^ 150 * d.toRat = single.ceiling side) :
    single.nearestRank (double.units result) double.one = single.nearestRank d.numerator d.denominator := by
  obtain ⟨hrounded, hfinite⟩ := scaled?_of_short hbits hexponent
  have hrank : result = double.nearestRank d.numerator d.denominator :=
    ofRank_inj hresult.le hfinite.le (Option.some.inj (hscaled.symm.trans hrounded))
  obtain ⟨m, -, hlength, hm⟩ := ceiling_cases single side
  rw [hm, spacing, Nat.cast_mul, Nat.cast_pow, Nat.cast_ofNat] at hpoint
  have hlarge : d.toRat ≤ 10 ^ 77 :=
    calc d.toRat ≤ d.significand * 10 ^ 22 := (toRat_bounds hpos hexponent).2
      _ ≤ 2 ^ 53 * 10 ^ 22 := by
        have : (d.significand : ℚ) ≤ 2 ^ 53 := by exact_mod_cast hbits.le
        gcongr
      _ ≤ 10 ^ 77 := by norm_num
  have hunits := units_nearestRank_of_halfway hlength hpoint hlarge
  rw [hrank]
  exact nearestRank_congr double.one_pos d.denominator_pos hunits

/-- A decimal further from the halfway points than the reader errs is read as the right single. -/
theorem nearestRank_of_far {ε : ℚ} (hrank : rank ≤ single.infinity)
    (hwithin : IsWithin ε (double.magnitude result) d.toRat) (hfloor : (single.floor rank : ℚ) ≤ 2 ^ 150 * d.toRat)
    (hceiling : 2 ^ 150 * d.toRat ≤ single.ceiling rank)
    (hfar : ∀ point : Nat, point = single.floor rank ∨ point = single.ceiling rank →
      ε * (2 ^ 150 * d.toRat) < |2 ^ 150 * d.toRat - point|) :
    single.nearestRank (double.units result) double.one = rank := by
  have hscaled : IsWithin ε (2 ^ 150 * double.magnitude result) (2 ^ 150 * d.toRat) := by
    rw [mul_comm _ (double.magnitude result), mul_comm _ d.toRat]
    exact hwithin.scale (by norm_num)
  obtain ⟨hlow, hhigh⟩ := hscaled.between hfloor hceiling (hfar _ (.inl rfl)) (hfar _ (.inr rfl))
  refine le_antisymm (nearestRank_le_of_div_lt double.one_pos ?_) (le_nearestRank_of_lt_div double.one_pos hrank ?_)
  · rw [two_mul_one_single]
    exact hhigh
  · rw [two_mul_one_single]
    exact hlow

theorem restored?_single_ofRank (hpos : 0 < rank) (hrank : rank < single.infinity) (negative : Bool) :
    (ofRank negative rank : Single).restored? (-6) 12 = some (ofRank negative rank) := by
  obtain ⟨hsignificand, hbits, hexponent, hshort⟩ := reading_shortest hpos hrank
  have htoRat := toRat_reading (-6) 12 (shortest single .even rank)
  obtain ⟨result, hscaled, hresult, hwithin⟩ := scaled?_within hsignificand hbits hexponent
  rw [restored?_ofRank hpos hrank (hbits.trans (by decide)) hresult hscaled]
  refine congrArg (fun r => some (ofRank negative r)) ?_
  have hself :
      single.nearestRank (shortest single .even rank).numerator (shortest single .even rank).denominator = rank :=
    (surrounds_shortest isFine_single .even rank).nearestRank_eq (denominator_pos _) hrank.le
  obtain ⟨hfloor, hceiling⟩ := toRat_shortest_bounds isFine_single .even rank
  rw [two_mul_one_single] at hfloor hceiling
  have hnear := @shortest_near rank
  generalize shortest single .even rank = d at *
  by_cases hconfusing : d ∈ confusing
  · rw [reading_confusing d hconfusing] at hscaled
    exact (nearestRank_of_confusing hconfusing hresult hscaled).trans hself
  by_cases hexact : (2 ^ 150 * d.toRat = single.floor rank ∨ 2 ^ 150 * d.toRat = single.ceiling rank) ∧
      d.exponent.natAbs ≤ 22
  · obtain ⟨hhalfway, hsmall⟩ := hexact
    obtain ⟨side, hside⟩ : ∃ side, 2 ^ 150 * d.toRat = single.ceiling side := by
      rcases hhalfway with hpoint | hpoint
      · exact ⟨rank - 1, by rw [ceiling_sub_one hpos, hpoint]⟩
      · exact ⟨rank, hpoint⟩
    rw [nearestRank_of_halfway hbits (hshort hsmall) hsignificand hresult hscaled (htoRat ▸ hside), ← hself]
    refine nearestRank_congr (denominator_pos _) (denominator_pos _) (ratio_eq (denominator_pos _) ?_)
    rw [← toRat_eq_div, htoRat]
  · rw [htoRat] at hwithin
    have htolerance :=
      div_le_div_of_nonneg_right (Nat.cast_le (α := ℚ).2 (tolerance_mono hshort)) (by norm_num : (0 : ℚ) ≤ 2 ^ 60)
    have hclose := hwithin.mono d.toRat_nonneg htolerance
    refine nearestRank_of_far hrank.le hclose hfloor hceiling fun point hpoint => ?_
    by_contra hle
    rw [not_lt, div_mul_eq_mul_div, le_div_iff₀ (by norm_num), mul_comm] at hle
    rcases hnear hpos hrank hpoint hle with ⟨heq, hsmall⟩ | hmem
    · refine hexact ⟨?_, hsmall⟩
      rcases hpoint with rfl | rfl
      · exact .inl heq
      · exact .inr heq
    · exact hconfusing hmem

/-- Every single comes back from its shortest decimal, zeros of either sign as well. -/
theorem restored?_single {x : Single} (hfinite : x.isFinite = true) : x.restored? (-6) 12 = some x := by
  match x with
  | .number negative rank =>
    have hrank : rank.val < single.infinity := of_decide_eq_true hfinite
    rw [← ofRank_val]
    rcases Nat.eq_zero_or_pos rank.val with hzero | hpos
    · rw [hzero]
      exact restored?_usual.1 negative
    · exact restored?_single_ofRank hpos hrank negative

end Binary

end SettingsRelay
