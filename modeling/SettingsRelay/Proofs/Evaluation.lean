import SettingsRelay.Proofs.Accuracy
import SettingsRelay.Proofs.Restoration

/-!
# How written decimals are evaluated

The digits of a written decimal fit into 64 bits, so a reader has the decimal as it was written. It
computes the decimal's number with one operation on doubles or, for the smallest numbers, with two.
-/

namespace SettingsRelay

/-! ## Significands -/

theorem le_ofDigitChars (ds : List Char) (n : Nat) : n ≤ Nat.ofDigitChars 10 ds n := by
  rw [Nat.ofDigitChars_eq_ofDigitChars_zero]
  exact (Nat.le_mul_of_pos_left n (Nat.pow_pos (by decide))).trans (Nat.le_add_right _ _)

theorem gather_of_lt {limit n : Nat} {ds : List Char} (h : Nat.ofDigitChars 10 ds n < limit) :
    gather limit n ds = (Nat.ofDigitChars 10 ds n, []) := by
  induction ds generalizing n with
  | nil => rw [gather, Nat.ofDigitChars_nil]
  | cons c ds ih =>
    rw [Nat.ofDigitChars_cons] at h ⊢
    have hnext : 10 * n + (c.toNat - '0'.toNat) < limit := (le_ofDigitChars ds _).trans_lt h
    rw [gather, if_pos hnext, ih h]

namespace Literal

theorem real?_of_lt {l : Literal} (h : digitsValue (l.whole ++ l.fraction) < UInt64.size) :
    l.real? = (scaled? (digitsValue (l.whole ++ l.fraction)) (l.writtenExponent - l.fraction.length)).map fun x =>
      if l.negative then -x else x := by
  rw [digitsValue, Nat.ofDigitChars_append] at h ⊢
  have hwhole : Nat.ofDigitChars 10 l.whole 0 < UInt64.size := (le_ofDigitChars _ _).trans_lt h
  rw [real?, significand, gather_of_lt hwhole]
  dsimp only
  rw [gather_of_lt h]
  dsimp only
  congr 2
  simp
  omega

end Literal

namespace DecimalLayout

/-- The decimal that a reader has in hand for a written one. A whole number comes with one more digit. -/
def reading (least greatest : Int) (d : Decimal) : Decimal :=
  let first := (Nat.toDigits 10 d.significand).length + d.exponent - 1
  if (least ≤ first ∧ first ≤ greatest) ∧ 0 ≤ d.exponent then ⟨d.significand * 10 ^ (d.exponent.toNat + 1), -1⟩
  else d

/-- A whole number in place has as many digits as there are places, and the one after the point. -/
theorem reading_cases (least greatest : Int) (d : Decimal) :
    reading least greatest d = d ∨
      0 ≤ d.exponent ∧ (reading least greatest d).exponent = -1 ∧
        d.significand ≤ (reading least greatest d).significand ∧
        (reading least greatest d).significand < 10 ^ (greatest + 2).toNat := by
  unfold reading
  dsimp only
  split
  · next h =>
    have hlength : 0 < (Nat.toDigits 10 d.significand).length := List.length_pos_iff.2 Nat.toDigits_ne_nil
    have hdigits :=
      (Nat.length_toDigits_le_iff (by decide) hlength).1 (le_refl (Nat.toDigits 10 d.significand).length)
    refine .inr ⟨h.2, rfl, Nat.le_mul_of_pos_right _ (Nat.pow_pos (by decide)), ?_⟩
    calc d.significand * 10 ^ (d.exponent.toNat + 1) <
        10 ^ (Nat.toDigits 10 d.significand).length * 10 ^ (d.exponent.toNat + 1) :=
          Nat.mul_lt_mul_of_pos_right hdigits (Nat.pow_pos (by decide))
      _ = 10 ^ ((Nat.toDigits 10 d.significand).length + (d.exponent.toNat + 1)) := (Nat.pow_add _ _ _).symm
      _ ≤ 10 ^ (greatest + 2).toNat := Nat.pow_le_pow_right (by decide) (by omega)
  · exact .inl rfl

theorem real?_inPlaceLiteral_of_nonneg {negative : Bool} {n : Nat} {exponent : Int} (h : 0 ≤ exponent)
    (hfits : n * 10 ^ (exponent.toNat + 1) < UInt64.size) :
    (inPlaceLiteral negative (Nat.toDigits 10 n) exponent).real? =
      (scaled? (n * 10 ^ (exponent.toNat + 1)) (-1)).map fun x => if negative then -x else x := by
  have hvalue : digitsValue (Nat.toDigits 10 n ++ List.replicate exponent.toNat '0' ++ ['0']) =
      n * 10 ^ (exponent.toNat + 1) := by
    rw [List.append_assoc, ← List.replicate_succ', digitsValue, Nat.ofDigitChars_append,
      Nat.ofDigitChars_ten_toDigits, Nat.ofDigitChars_replicate_zero, Nat.mul_comm]
  have hliteral : inPlaceLiteral negative (Nat.toDigits 10 n) exponent =
      ⟨negative, Nat.toDigits 10 n ++ List.replicate exponent.toNat '0', ['0'], false, []⟩ := by
    rw [inPlaceLiteral, if_pos h]
  rw [hliteral, Literal.real?_of_lt (by rwa [hvalue]), hvalue]
  rfl

theorem real?_inPlaceLiteral_of_neg {negative : Bool} {n : Nat} {exponent : Int} (h : exponent < 0)
    (hfits : n < UInt64.size) :
    (inPlaceLiteral negative (Nat.toDigits 10 n) exponent).real? =
      (scaled? n exponent).map fun x => if negative then -x else x := by
  have hne : ¬0 ≤ exponent := by omega
  rw [inPlaceLiteral, if_neg hne]
  split
  · next hwhole =>
    have hvalue : digitsValue ((Nat.toDigits 10 n).take ((Nat.toDigits 10 n).length + exponent).toNat ++
        (Nat.toDigits 10 n).drop ((Nat.toDigits 10 n).length + exponent).toNat) = n := by
      rw [List.take_append_drop, digitsValue_toDigits]
    have hpower : (0 : Int) - ((Nat.toDigits 10 n).drop ((Nat.toDigits 10 n).length + exponent).toNat).length =
        exponent := by
      rw [List.length_drop]
      omega
    rw [Literal.real?_of_lt (by rwa [hvalue]), hvalue]
    exact congrArg (fun e => (scaled? n e).map _) hpower
  · next hwhole =>
    have hvalue : digitsValue (['0'] ++ (List.replicate (-((Nat.toDigits 10 n).length + exponent)).toNat '0' ++
        Nat.toDigits 10 n)) = n := by
      rw [← List.append_assoc, ← List.replicate_one, List.replicate_append_replicate, digitsValue,
        Nat.ofDigitChars_append, Nat.ofDigitChars_replicate_zero, Nat.mul_zero, Nat.ofDigitChars_ten_toDigits]
    have hpower : (0 : Int) - (List.replicate (-((Nat.toDigits 10 n).length + exponent)).toNat '0' ++
        Nat.toDigits 10 n).length = exponent := by
      rw [List.length_append, List.length_replicate]
      omega
    rw [Literal.real?_of_lt (by rwa [hvalue]), hvalue]
    exact congrArg (fun e => (scaled? n e).map _) hpower

theorem writtenExponent_exponentLiteral (negative : Bool) (digits : List Char) (first : Int) :
    (exponentLiteral negative digits first).writtenExponent = first := by
  rw [exponentLiteral, Literal.writtenExponent]
  dsimp only
  rw [digitsValue_toDigits]
  split
  · next h =>
    have : first < 0 := of_decide_eq_true h
    omega
  · next h =>
    have : ¬first < 0 := fun hneg => h (decide_eq_true hneg)
    omega

theorem real?_exponentLiteral {negative : Bool} {n : Nat} {exponent : Int} (hfits : n < UInt64.size) :
    (exponentLiteral negative (Nat.toDigits 10 n) ((Nat.toDigits 10 n).length + exponent - 1)).real? =
      (scaled? n exponent).map fun x => if negative then -x else x := by
  have hvalue : digitsValue ((Nat.toDigits 10 n).take 1 ++ (Nat.toDigits 10 n).drop 1) = n := by
    rw [List.take_append_drop, digitsValue_toDigits]
  have hlength : 0 < (Nat.toDigits 10 n).length := List.length_pos_iff.2 Nat.toDigits_ne_nil
  have hpower :
      ((Nat.toDigits 10 n).length + exponent - 1 : Int) - ((Nat.toDigits 10 n).drop 1).length = exponent := by
    rw [List.length_drop]
    omega
  rw [Literal.real?_of_lt (by rwa [exponentLiteral, hvalue]), writtenExponent_exponentLiteral]
  rw [exponentLiteral, hvalue, hpower]

theorem real?_literal {least greatest : Int} {negative : Bool} {d : Decimal}
    (hfits : (reading least greatest d).significand < UInt64.size) :
    (literal least greatest negative d).real? =
      (scaled? (reading least greatest d).significand (reading least greatest d).exponent).map fun x =>
        if negative then -x else x := by
  unfold reading literal at *
  dsimp only at *
  split at hfits
  · next h =>
    rw [if_pos h.1, if_pos h]
    exact real?_inPlaceLiteral_of_nonneg h.2 hfits
  · next h =>
    rw [if_neg h]
    split
    · next hplace => exact real?_inPlaceLiteral_of_neg (by omega) hfits
    · exact real?_exponentLiteral hfits

end DecimalLayout

/-! ## Evaluation -/

namespace Decimal

def toRat (d : Decimal) : ℚ := d.significand * 10 ^ d.exponent

theorem toRat_nonneg (d : Decimal) : 0 ≤ d.toRat := mul_nonneg (Nat.cast_nonneg _) (zpow_nonneg (by norm_num) _)

theorem toRat_eq_div (d : Decimal) : d.toRat = d.numerator / d.denominator := by
  rw [toRat, numerator, denominator, Nat.cast_mul, Nat.cast_pow, Nat.cast_pow, mul_div_assoc]
  congr 1
  rcases Int.le_total 0 d.exponent with h | h
  · obtain ⟨n, hn⟩ := Int.eq_ofNat_of_zero_le h
    rw [hn]
    simp
  · obtain ⟨n, hn⟩ := Int.eq_ofNat_of_zero_le (Int.neg_nonneg.2 h)
    rw [show d.exponent = -n by omega]
    simp

theorem toRat_reading (least greatest : Int) (d : Decimal) :
    (DecimalLayout.reading least greatest d).toRat = d.toRat := by
  unfold DecimalLayout.reading
  dsimp only
  split
  · next h =>
    obtain ⟨n, hn⟩ := Int.eq_ofNat_of_zero_le h.2
    simp only [toRat, hn, Int.toNat_natCast]
    push_cast
    rw [pow_succ, zpow_natCast, zpow_neg_one]
    ring
  · rfl

theorem ratio_eq {num den : Nat} {d : Decimal} (hden : 0 < den) (h : (num / den : ℚ) = d.toRat) :
    num * d.denominator = d.numerator * den := by
  rw [toRat_eq_div, div_eq_div_iff (Nat.cast_ne_zero.2 hden.ne') (Nat.cast_ne_zero.2 d.denominator_pos.ne')] at h
  exact_mod_cast h

theorem toRat_bounds {d : Decimal} {n : Nat} (hpos : 0 < d.significand) (hexponent : d.exponent.natAbs ≤ n) :
    (10 : ℚ) ^ (-n : Int) ≤ d.toRat ∧ d.toRat ≤ d.significand * 10 ^ n := by
  have hsignificand : (1 : ℚ) ≤ d.significand := by exact_mod_cast hpos
  unfold toRat
  constructor
  · calc (10 : ℚ) ^ (-n : Int) ≤ 10 ^ d.exponent := zpow_le_zpow_right₀ (by norm_num) (by omega)
      _ ≤ d.significand * 10 ^ d.exponent := le_mul_of_one_le_left (zpow_nonneg (by norm_num) _) hsignificand
  · rw [← zpow_natCast]
    exact mul_le_mul_of_nonneg_left (zpow_le_zpow_right₀ (by norm_num) (by omega)) (by positivity)

/-- The shortest decimal of a number lies between the points halfway to the neighbours. -/
theorem toRat_shortest_bounds {f : BinaryFormat} (hf : f.IsFine) (tie : TieRule) (rank : Nat) :
    (f.floor rank : ℚ) ≤ 2 * f.one * (shortest f tie rank).toRat ∧
      2 * f.one * (shortest f tie rank).toRat ≤ f.ceiling rank := by
  obtain ⟨hfloor, hceiling, -, -⟩ := surrounds_shortest hf tie rank
  have hden : (0 : ℚ) < (shortest f tie rank).denominator := Nat.cast_pos.2 (shortest f tie rank).denominator_pos
  rw [toRat_eq_div, ← mul_div_assoc, le_div_iff₀ hden, div_le_iff₀ hden]
  rw [← Nat.cast_le (α := ℚ)] at hfloor hceiling
  push_cast at hfloor hceiling
  constructor <;> linarith

theorem mul_sub_le_of_scaled {a b c : Nat} {x y z scale : ℚ} (ha : (a : ℚ) = x * scale) (hb : (b : ℚ) = y * scale)
    (hc : (c : ℚ) = z * scale) (hscale : 0 ≤ scale) (h : 8 * (x - y) ≤ z) : 8 * (a - b) ≤ c := by
  have hscaled := mul_le_mul_of_nonneg_right h hscale
  have hcast : (8 * a : ℚ) ≤ c + 8 * b := by
    rw [ha, hb, hc]
    linarith
  have : 8 * a ≤ c + 8 * b := by exact_mod_cast hcast
  omega

/-- Near a halfway point the grid of the shortest decimal is as coarse as the numbers are. -/
theorem shortest_coarse {f : BinaryFormat} (hf : f.IsFine) (tie : TieRule) {rank : Nat} (hpos : 0 < rank) :
    (8 * (f.ceiling rank - 2 * f.one * (shortest f tie rank).toRat) ≤ f.spacing rank →
      (f.spacing rank : ℚ) ≤ 10 ^ (shortest f tie rank).exponent * (2 * f.one)) ∧
    (8 * (2 * f.one * (shortest f tie rank).toRat - f.floor rank) ≤ f.spacing (rank - 1) →
      (f.spacing (rank - 1) : ℚ) ≤ 10 ^ (shortest f tie rank).exponent * (2 * f.one)) := by
  obtain ⟨found, hexponent, hhigh, hlow⟩ := shortest_grid hf tie hpos
  rw [Basin.high_ofRank] at hhigh
  rw [Basin.low_ofRank] at hlow
  have hfine : (0 : ℚ) < 10 ^ (f.scale / 3) := by positivity
  have hpower : (10 : ℚ) ^ (shortest f tie rank).exponent * 10 ^ (f.scale / 3) = 10 ^ found := by
    rw [hexponent, zpow_sub₀ (by norm_num), zpow_natCast, zpow_natCast, div_mul_cancel₀ _ hfine.ne']
  rw [toRat]
  generalize shortest f tie rank = d at *
  have hcast : ∀ u : Nat, ((u * 10 ^ (f.scale / 3) : Nat) : ℚ) = u * 10 ^ (f.scale / 3) := fun u => by push_cast; rfl
  have hpoint : ((d.significand * (10 ^ found * (2 * f.one)) : Nat) : ℚ) =
      2 * f.one * (d.significand * 10 ^ d.exponent) * 10 ^ (f.scale / 3) := by
    push_cast
    rw [← hpower]
    ring
  have hcoarse : ∀ spacing : Nat, spacing * 10 ^ (f.scale / 3) ≤ 10 ^ found * (2 * f.one) →
      (spacing : ℚ) ≤ 10 ^ d.exponent * (2 * f.one) := fun spacing h => by
    rw [← Nat.cast_le (α := ℚ)] at h
    push_cast at h
    rw [← hpower, mul_right_comm] at h
    exact le_of_mul_le_mul_right h hfine
  constructor
  · intro hnear
    exact hcoarse _ (hhigh (mul_sub_le_of_scaled (hcast _) hpoint (hcast _) hfine.le hnear))
  · intro hnear
    exact hcoarse _ (hlow (mul_sub_le_of_scaled hpoint (hcast _) (hcast _) hfine.le hnear))

end Decimal

def doubleRank (n : Nat) : Nat := BinaryFormat.double.nearestRank n 1

open BinaryFormat in
theorem doubleRank_lt {n : Nat} (h : n ≤ greatestPower) : doubleRank n < double.infinity :=
  double_finite Nat.one_pos (h.trans_eq (Nat.mul_one _).symm)

open BinaryFormat in
theorem doubleRank_ne_zero {n : Nat} (hpos : 0 < n) (hle : n ≤ greatestPower) : doubleRank n ≠ 0 := by
  intro hzero
  have hwithin := (double_within hpos hle).pos (Nat.cast_pos.2 hpos) (by norm_num [roundoff])
  rw [show double.nearestRank n 1 = 0 from hzero, magnitude, units_zero, Nat.cast_zero, zero_div] at hwithin
  exact lt_irrefl _ hwithin

open BinaryFormat in
theorem magnitude_doubleRank {n : Nat} (h : n < 2 ^ 53) : double.magnitude (doubleRank n) = n := by
  have hbound : n * 2 ^ 0 ≤ greatestPower := by
    rw [pow_zero, Nat.mul_one]
    exact h.le.trans (le_trans (by decide) (pow_le_greatestPower (j := 16) (by decide)))
  have hexact := double_exact h hbound
  rwa [pow_zero, Nat.mul_one] at hexact

open BinaryFormat in
theorem scaled?_eq {m : Nat} (hfits : m < UInt64.size) {e : Int} (hlow : -greatestExponent ≤ e)
    (hhigh : e ≤ greatestExponent) :
    ∃ num den : Nat, 0 < den ∧
      (num / den : ℚ) = double.magnitude (doubleRank m) *
        (if e < 0 then (double.magnitude (doubleRank (10 ^ e.natAbs)))⁻¹
        else double.magnitude (doubleRank (10 ^ e.natAbs))) ∧
      (double.nearestRank num den < double.infinity →
        scaled? m e = some (.ofRank false (double.nearestRank num den))) := by
  have hbound : m ≤ greatestPower := le_greatestPower hfits
  have hpower : 10 ^ e.natAbs ≤ greatestPower := pow_le_greatestPower (by omega)
  have ha := doubleRank_lt hbound
  have hb := doubleRank_lt hpower
  have hb0 := doubleRank_ne_zero (Nat.pow_pos (by decide)) hpower
  have hone : (double.one : ℚ) ≠ 0 := Nat.cast_ne_zero.2 double.one_pos.ne'
  rcases lt_or_ge e 0 with hneg | hnonneg
  · refine ⟨double.units (doubleRank m), double.units (doubleRank (10 ^ e.natAbs)),
      double.units_pos (Nat.pos_of_ne_zero hb0),
      ?_, fun hfinite => ?_⟩
    · rw [if_pos hneg, magnitude, magnitude]
      have hunits : (double.units (doubleRank (10 ^ e.natAbs)) : ℚ) ≠ 0 :=
        Nat.cast_ne_zero.2 (double.units_pos (Nat.pos_of_ne_zero hb0)).ne'
      field_simp
    · have hshift : (-e).toNat = e.natAbs := by omega
      have hsmall : e.natAbs ≤ 308 := by
        have : greatestExponent = 308 := rfl
        omega
      rw [scaled?, if_pos hneg, hshift, shrink, if_pos hsmall]
      exact congrArg some (Binary.div_ofRank false false ha hb hb0)
  · refine ⟨double.units (doubleRank m) * double.units (doubleRank (10 ^ e.natAbs)), double.one * double.one,
      Nat.mul_pos double.one_pos double.one_pos, ?_, fun hfinite => ?_⟩
    · rw [if_neg (Int.not_lt.2 hnonneg), magnitude, magnitude]
      push_cast
      field_simp
    · have hshift : e.toNat = e.natAbs := by omega
      have hproduct : (.ofNat m * .ofNat (Nat.pow 10 e.natAbs) : Double) = _ := Binary.mul_ofRank false false ha hb
      have hsmall : e ≤ 308 := hhigh
      rw [scaled?, if_neg (Int.not_lt.2 hnonneg), if_pos hsmall, hshift]
      dsimp only
      rw [hproduct]
      exact if_pos (Binary.isFinite_ofRank _ hfinite)

open BinaryFormat in
/-- The ratio is about as close to the decimal as its two operands are to the significand and to the power
of ten. -/
theorem scaled?_near {d : Decimal} (hfits : d.significand < UInt64.size) (hlow : -greatestExponent ≤ d.exponent)
    (hhigh : d.exponent ≤ greatestExponent) {δ ε : ℚ}
    (hδ : IsWithin δ (double.magnitude (doubleRank d.significand)) d.significand)
    (hε : IsWithin ε (double.magnitude (doubleRank (10 ^ d.exponent.natAbs))) (10 ^ d.exponent.natAbs : Nat))
    (hδ0 : 0 ≤ δ) (hε0 : 0 ≤ ε) (hε1 : ε < 1) :
    ∃ num den : Nat, 0 < den ∧ IsWithin (δ + ε / (1 - ε) + δ * (ε / (1 - ε))) (num / den) d.toRat ∧
      (double.nearestRank num den < double.infinity →
        scaled? d.significand d.exponent = some (.ofRank false (double.nearestRank num den))) := by
  obtain ⟨num, den, hden, hratio, hscaled⟩ := scaled?_eq hfits hlow hhigh
  refine ⟨num, den, hden, ?_, hscaled⟩
  have hpower : (0 : ℚ) < (10 ^ d.exponent.natAbs : Nat) := Nat.cast_pos.2 (Nat.pow_pos (by decide))
  rw [hratio, Decimal.toRat]
  split
  · next hneg =>
    have hzpow : (10 : ℚ) ^ d.exponent = ((10 ^ d.exponent.natAbs : Nat) : ℚ)⁻¹ := by
      obtain ⟨n, hn⟩ := Int.eq_ofNat_of_zero_le (Int.neg_nonneg.2 hneg.le)
      rw [show d.exponent = -n by omega]
      simp
    rw [hzpow]
    exact hδ.mul (hε.inv hpower hε1) (Nat.cast_nonneg _) (inv_nonneg.2 (magnitude_nonneg _)) hδ0
  · next hnonneg =>
    have hzpow : (10 : ℚ) ^ d.exponent = (10 ^ d.exponent.natAbs : Nat) := by
      obtain ⟨n, hn⟩ := Int.eq_ofNat_of_zero_le (Int.not_lt.1 hnonneg)
      rw [hn]
      simp
    have hinv : ε ≤ ε / (1 - ε) := (le_div_iff₀ (by linarith)).2 (by nlinarith)
    rw [hzpow]
    refine (hδ.mul hε (Nat.cast_nonneg _) (magnitude_nonneg _) hδ0).mono
      (mul_nonneg (Nat.cast_nonneg _) hpower.le) ?_
    have := mul_le_mul_of_nonneg_left hinv hδ0
    linarith

open BinaryFormat in
/-- Where the significand and the power of ten are exact, the reader makes a single rounding. -/
theorem scaled?_of_short {d : Decimal} (hbits : d.significand < 2 ^ 53) (hexponent : d.exponent.natAbs ≤ 22) :
    scaled? d.significand d.exponent = some (.ofRank false (double.nearestRank d.numerator d.denominator)) ∧
      double.nearestRank d.numerator d.denominator < double.infinity := by
  have hfits : d.significand < UInt64.size := hbits.trans (by decide)
  have hpower : double.magnitude (doubleRank (10 ^ d.exponent.natAbs)) = (10 ^ d.exponent.natAbs : Nat) :=
    double_exact_pow hexponent
  have hrange : -(greatestExponent : Int) ≤ d.exponent ∧ d.exponent ≤ greatestExponent := by
    unfold greatestExponent
    omega
  obtain ⟨num, den, hden, hnear, hscaled⟩ := scaled?_near hfits hrange.1 hrange.2
    (δ := 0) (ε := 0) (by rw [magnitude_doubleRank hbits]; exact .refl _)
    (by rw [hpower]; exact .refl _) le_rfl le_rfl (by norm_num)
  have hratio : (num / den : ℚ) = d.toRat := by
    have : |(num / den : ℚ) - d.toRat| ≤ 0 := by simpa [IsWithin] using hnear
    exact sub_eq_zero.1 (abs_eq_zero.1 (le_antisymm this (abs_nonneg _)))
  rw [nearestRank_congr hden d.denominator_pos (Decimal.ratio_eq hden hratio)] at hscaled
  have hfinite : double.nearestRank d.numerator d.denominator < double.infinity := by
    refine double_finite d.denominator_pos (le_trans ?_ (Nat.le_mul_of_pos_right _ d.denominator_pos))
    calc d.numerator ≤ 2 ^ 53 * 10 ^ 22 := Nat.mul_le_mul hbits.le (Nat.pow_le_pow_right (by decide) (by omega))
      _ ≤ 10 ^ 38 := by norm_num
      _ ≤ greatestPower := pow_le_greatestPower (by decide)
  exact ⟨hscaled hfinite, hfinite⟩

namespace Binary

variable {f : BinaryFormat} {least greatest : Int} {negative : Bool} {rank result : Nat}

theorem written_ofRank (hpos : 0 < rank) (hrank : rank < f.infinity) :
    (ofRank negative rank : Binary f).written least greatest =
      DecimalLayout.literal least greatest negative (.shortest f .even rank) := by
  simp only [ofRank, written, Nat.min_eq_left hrank.le, hpos.ne', if_false]

/-- A number comes back as what the reader makes of its shortest decimal, with its sign. -/
theorem restored?_ofRank (hpos : 0 < rank) (hrank : rank < f.infinity)
    (hfits : (DecimalLayout.reading least greatest (.shortest f .even rank)).significand < UInt64.size)
    (hresult : result < BinaryFormat.double.infinity)
    (hscaled : scaled? (DecimalLayout.reading least greatest (.shortest f .even rank)).significand
      (DecimalLayout.reading least greatest (.shortest f .even rank)).exponent = some (ofRank false result)) :
    (ofRank negative rank : Binary f).restored? least greatest =
      some (ofRank negative (f.nearestRank (BinaryFormat.double.units result) BinaryFormat.double.one)) := by
  have hsign :
      (if negative then -(ofRank false result : Double) else ofRank false result) = ofRank negative result := by
    cases negative <;> rfl
  rw [restored?, if_pos (isFinite_ofRank negative hrank), written_ofRank hpos hrank,
    DecimalLayout.real?_literal hfits, hscaled]
  change some (Binary.convert (if negative then -(ofRank false result : Double) else ofRank false result)) = _
  rw [hsign, convert_ofRank negative hresult]

end Binary

end SettingsRelay
