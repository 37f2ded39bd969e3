import Mathlib.Algebra.Order.Field.Rat
import Mathlib.Tactic.FieldSimp
import Mathlib.Tactic.Positivity
import SettingsRelay.Proofs.Rounding

/-!
# The accuracy of arithmetic

How far the results of operations on binary numbers can be from the exact ones, as a fraction of these. A
rounding adds at most half a unit in the last place, and the errors of operands are carried on.
-/

namespace SettingsRelay

/-! ## Relative errors -/

/-- Whether `x` differs from `q` by no more than the given part of `q`. -/
def IsWithin (error x q : ℚ) : Prop := |x - q| ≤ error * q

namespace IsWithin

variable {x y p q δ ε : ℚ}

theorem refl (q : ℚ) : IsWithin 0 q q := by
  rw [IsWithin, sub_self, abs_zero, zero_mul]

theorem mono (h : IsWithin ε x q) (hq : 0 ≤ q) (hle : ε ≤ δ) : IsWithin δ x q :=
  h.trans (mul_le_mul_of_nonneg_right hle hq)

theorem bounds (h : IsWithin ε x q) : (1 - ε) * q ≤ x ∧ x ≤ (1 + ε) * q := by
  obtain ⟨hlow, hhigh⟩ := abs_le.1 h
  constructor <;> linarith

theorem of_bounds (hlow : (1 - ε) * q ≤ x) (hhigh : x ≤ (1 + ε) * q) : IsWithin ε x q := by
  rw [IsWithin, abs_le]
  constructor <;> linarith

theorem pos (h : IsWithin ε x q) (hq : 0 < q) (hε : ε < 1) : 0 < x :=
  lt_of_lt_of_le (mul_pos (by linarith) hq) h.bounds.1

theorem scale (h : IsWithin ε x q) {c : ℚ} (hc : 0 ≤ c) : IsWithin ε (x * c) (q * c) := by
  rw [IsWithin, ← sub_mul, abs_mul, abs_of_nonneg hc, ← mul_assoc]
  exact mul_le_mul_of_nonneg_right h hc

theorem trans (hxy : IsWithin δ x y) (hyq : IsWithin ε y q) (hδ : 0 ≤ δ) : IsWithin (δ + ε + δ * ε) x q := by
  have hsplit : |x - q| ≤ |x - y| + |y - q| := abs_sub_le x y q
  have hy : δ * y ≤ δ * ((1 + ε) * q) := mul_le_mul_of_nonneg_left hyq.bounds.2 hδ
  have hx : |x - y| ≤ δ * y := hxy
  have hyq : |y - q| ≤ ε * q := hyq
  rw [IsWithin]
  linarith

theorem mul (hx : IsWithin δ x p) (hy : IsWithin ε y q) (hp : 0 ≤ p) (hy0 : 0 ≤ y) (hδ : 0 ≤ δ) :
    IsWithin (δ + ε + δ * ε) (x * y) (p * q) := by
  have hleft : IsWithin δ (x * y) (p * y) := hx.scale hy0
  have hright : IsWithin ε (p * y) (p * q) := by
    rw [mul_comm p y, mul_comm p q]
    exact hy.scale hp
  exact hleft.trans hright hδ

theorem inv (h : IsWithin ε x q) (hq : 0 < q) (hε : ε < 1) : IsWithin (ε / (1 - ε)) x⁻¹ q⁻¹ := by
  have hx : 0 < x := h.pos hq hε
  have hdiff : x⁻¹ - q⁻¹ = (q - x) * (x⁻¹ * q⁻¹) := by field_simp
  have hclose : |q - x| ≤ ε * q := by rw [abs_sub_comm]; exact h
  have hε0 : 0 ≤ ε := nonneg_of_mul_nonneg_left ((abs_nonneg _).trans h) hq
  have hinv : x⁻¹ ≤ ((1 - ε) * q)⁻¹ := inv_anti₀ (mul_pos (by linarith) hq) h.bounds.1
  calc |x⁻¹ - q⁻¹| = |q - x| * (x⁻¹ * q⁻¹) := by rw [hdiff, abs_mul, abs_of_pos (a := x⁻¹ * q⁻¹) (by positivity)]
    _ ≤ (ε * q) * (((1 - ε) * q)⁻¹ * q⁻¹) := by gcongr
    _ = ε / (1 - ε) * q⁻¹ := by
      have : 1 - ε ≠ 0 := by linarith
      field_simp

/-- What is further from both ends of an interval than the error stays inside. -/
theorem between {low high : ℚ} (h : IsWithin ε x q) (hlow : low ≤ q) (hhigh : q ≤ high) (hlow' : ε * q < |q - low|)
    (hhigh' : ε * q < |q - high|) : low < x ∧ x < high := by
  rw [abs_of_nonneg (sub_nonneg.2 hlow)] at hlow'
  rw [abs_of_nonpos (sub_nonpos.2 hhigh)] at hhigh'
  obtain ⟨hbelow, habove⟩ := h.bounds
  constructor <;> linarith

end IsWithin

namespace BinaryFormat

variable {f : BinaryFormat} {num den : Nat}

/-- The number of a rank. -/
def magnitude (f : BinaryFormat) (rank : Nat) : ℚ := f.units rank / f.one

theorem magnitude_nonneg (rank : Nat) : 0 ≤ f.magnitude rank := by unfold magnitude; positivity

/-- Above the first binade a rounded ratio is off by half a unit in the last place at most. -/
theorem units_nearestRank (hden : 0 < den) (hfinite : f.nearestRank num den < f.infinity)
    (hnormal : f.binade * den ≤ num * f.one) :
    2 * f.binade * (f.units (f.nearestRank num den) * den) ≤ (2 * f.binade + 1) * (num * f.one) ∧
    2 * f.binade * (num * f.one) ≤ 2 * f.binade * (f.units (f.nearestRank num den) * den) + num * f.one := by
  obtain ⟨hfloor, hceiling, -, -⟩ := surrounds_nearestRank hden hfinite
  generalize f.nearestRank num den = rank at *
  generalize num * f.one = exact at *
  rcases Nat.lt_or_ge exact (f.units rank * den) with hup | hdown
  · -- rounded up: the error is at most half the way from the rank below
    refine ⟨?_, (Nat.mul_le_mul_left _ hup.le).trans (Nat.le_add_right _ _)⟩
    have habove : f.binade < rank := by
      by_contra hle
      have hunits : f.units rank ≤ f.units f.binade := f.units_strictMono.monotone (Nat.le_of_not_lt hle)
      rw [f.units_binade] at hunits
      have := Nat.mul_le_mul_right den hunits
      omega
    obtain ⟨below, rfl⟩ : ∃ below, rank = below + 1 := ⟨rank - 1, by omega⟩
    have hspacing : f.spacing below * f.binade * den ≤ f.units below * den :=
      Nat.mul_le_mul_right den (spacing_mul_binade_le (by omega))
    rw [floor, Nat.add_sub_cancel, f.units_succ] at hfloor
    rw [f.units_succ] at hup ⊢
    nlinarith
  · -- rounded down: the error is at most half the way to the rank above
    refine ⟨?_, ?_⟩
    · calc 2 * f.binade * (f.units rank * den) ≤ 2 * f.binade * exact := Nat.mul_le_mul_left _ hdown
        _ ≤ (2 * f.binade + 1) * exact := Nat.mul_le_mul_right _ (Nat.le_succ _)
    have habove : f.binade ≤ rank := by
      by_contra hlt
      have hunits : f.units rank + f.units (rank + 1) < 2 * f.binade := by
        have hlast := f.units_strictMono.monotone (show rank + 1 ≤ f.binade by omega)
        rw [f.units_binade] at hlast
        have hself : f.units rank = rank := units_eq_self (by omega)
        omega
      rw [ceiling] at hceiling
      have := Nat.mul_lt_mul_of_pos_right hunits hden
      linarith
    have hspacing : f.spacing rank * f.binade * den ≤ f.units rank * den :=
      Nat.mul_le_mul_right den (spacing_mul_binade_le habove)
    rw [ceiling, f.units_succ] at hceiling
    nlinarith

/-- Rounding errs by half a unit in the last place at most. -/
theorem magnitude_nearestRank (hden : 0 < den) (hfinite : f.nearestRank num den < f.infinity)
    (hnormal : f.binade * den ≤ num * f.one) :
    IsWithin (1 / (2 * f.binade)) (f.magnitude (f.nearestRank num den)) (num / den) := by
  obtain ⟨hhigh, hlow⟩ := units_nearestRank hden hfinite hnormal
  have hbinade : (0 : ℚ) < f.binade := Nat.cast_pos.2 f.binade_pos
  have hone : (0 : ℚ) < f.one := Nat.cast_pos.2 f.one_pos
  have hden : (0 : ℚ) < den := Nat.cast_pos.2 hden
  rw [← Nat.cast_le (α := ℚ)] at hhigh hlow
  push_cast at hhigh hlow
  refine .of_bounds ?_ ?_
  · rw [magnitude]
    field_simp
    linarith
  · rw [magnitude]
    field_simp
    linarith

theorem nearestRank_le_of_div_lt {rank : Nat} (hden : 0 < den) (h : 2 * f.one * (num / den) < (f.ceiling rank : ℚ)) :
    f.nearestRank num den ≤ rank := by
  rw [← mul_div_assoc, div_lt_iff₀ (Nat.cast_pos.2 hden)] at h
  refine nearestRank_le_of_lt hden ?_
  rw [← Nat.cast_lt (α := ℚ)]
  push_cast
  linarith

theorem le_nearestRank_of_lt_div {rank : Nat} (hden : 0 < den) (hrank : rank ≤ f.infinity)
    (h : (f.floor rank : ℚ) < 2 * f.one * (num / den)) : rank ≤ f.nearestRank num den := by
  rw [← mul_div_assoc, lt_div_iff₀ (Nat.cast_pos.2 hden)] at h
  refine le_nearestRank_of_lt hden hrank ?_
  rw [← Nat.cast_lt (α := ℚ)]
  push_cast
  linarith

theorem ceiling_pos (rank : Nat) : 0 < f.ceiling rank := by
  rw [ceiling_eq]
  exact Nat.add_pos_right _ (f.spacing_pos rank)

theorem mul_ceiling_le (rank n : Nat) : (1 + n / (2 * f.binade)) * f.ceiling rank ≤ (f.ceiling (rank + n) : ℚ) := by
  have hbinade : (0 : ℚ) < 2 * f.binade := mul_pos two_pos (Nat.cast_pos.2 f.binade_pos)
  have hle : ((2 * f.binade + n) * f.ceiling rank : ℚ) ≤ 2 * f.binade * f.ceiling (rank + n) := by
    exact_mod_cast f.ceiling_mul_le rank n
  rw [← mul_le_mul_iff_right₀ hbinade, ← mul_assoc, mul_add, mul_one, mul_div_cancel₀ _ hbinade.ne']
  exact hle

/-- What is close to something around a rank is rounded to a rank nearby. -/
theorem nearestRank_close {rank n : Nat} {ε q : ℚ} (hden : 0 < den) (hrank : rank ≤ f.infinity)
    (hfloor : (f.floor rank : ℚ) ≤ 2 * f.one * q) (hceiling : 2 * f.one * q ≤ f.ceiling rank)
    (hwithin : IsWithin ε (num / den) q) (hε : 0 ≤ ε) (herror : 1 < (1 - ε) * (1 + n / (2 * f.binade))) :
    f.nearestRank num den ≤ rank + n ∧ rank ≤ f.nearestRank num den + n := by
  have hden' : (0 : ℚ) < den := Nat.cast_pos.2 hden
  have hone : (0 : ℚ) < 2 * f.one := mul_pos two_pos (Nat.cast_pos.2 f.one_pos)
  have hfurther := fun r => f.mul_ceiling_le r n
  have hpositive : ∀ r, (0 : ℚ) < f.ceiling r := fun r => Nat.cast_pos.2 (f.ceiling_pos r)
  have hratio : 0 ≤ (n / (2 * f.binade) : ℚ) := by positivity
  generalize (n / (2 * f.binade) : ℚ) = step at *
  have hlt : ε < step := by nlinarith
  obtain ⟨hlow, hhigh⟩ := hwithin.bounds
  constructor
  · refine nearestRank_le_of_div_lt hden ?_
    calc (2 * f.one * (num / den) : ℚ) ≤ 2 * f.one * ((1 + ε) * q) := mul_le_mul_of_nonneg_left hhigh hone.le
      _ = (1 + ε) * (2 * f.one * q) := by ring
      _ ≤ (1 + ε) * f.ceiling rank := mul_le_mul_of_nonneg_left hceiling (by linarith)
      _ < (1 + step) * f.ceiling rank := mul_lt_mul_of_pos_right (by linarith) (hpositive rank)
      _ ≤ f.ceiling (rank + n) := hfurther rank
  · -- a rank further down has a halfway point that is too low
    by_contra hfar
    rw [Nat.not_le] at hfar
    have hfinite : f.nearestRank num den < f.infinity := by omega
    have hsurrounds := (surrounds_nearestRank hden hfinite).le_ceiling
    generalize f.nearestRank num den = nearest at *
    have habove : 2 * f.one * (num / den) ≤ (f.ceiling nearest : ℚ) := by
      rw [← mul_div_assoc, div_le_iff₀ hden']
      have hcast : ((2 * (num * f.one) : Nat) : ℚ) ≤ (f.ceiling nearest * den : Nat) := Nat.cast_le.2 hsurrounds
      push_cast at hcast
      linarith
    have hmono : (f.ceiling (nearest + n) : ℚ) ≤ f.floor rank := by
      rw [← ceiling_sub_one (by omega), Nat.cast_le, ceiling, ceiling]
      exact Nat.add_le_add (f.units_strictMono.monotone (by omega)) (f.units_strictMono.monotone (by omega))
    have hless : (1 - ε) * ((1 + step) * f.ceiling nearest) ≤ f.ceiling nearest :=
      calc (1 - ε) * ((1 + step) * f.ceiling nearest) ≤ (1 - ε) * (2 * f.one * q) :=
            mul_le_mul_of_nonneg_left ((hfurther nearest).trans (hmono.trans hfloor)) (by nlinarith)
        _ = 2 * f.one * ((1 - ε) * q) := by ring
        _ ≤ 2 * f.one * (num / den) := mul_le_mul_of_nonneg_left hlow hone.le
        _ ≤ f.ceiling nearest := habove
    rw [← mul_assoc] at hless
    exact absurd (mul_lt_mul_of_pos_right herror (hpositive nearest)) (by linarith)

end BinaryFormat

/-! ## Operations -/

namespace Binary

variable {f g : BinaryFormat} {a b : Nat}

theorem mul_ofRank (s t : Bool) (ha : a < f.infinity) (hb : b < f.infinity) :
    (ofRank s a * ofRank t b : Binary f) =
        ofRank (s != t) (f.nearestRank (f.units a * f.units b) (f.one * f.one)) := by
  change Binary.mul (ofRank s a) (ofRank t b) = _
  simp only [Binary.mul, ofRank, Nat.min_eq_left ha.le, Nat.min_eq_left hb.le, ha.ne, hb.ne, or_self, if_false]
  rfl

theorem div_ofRank (s t : Bool) (ha : a < f.infinity) (hb : b < f.infinity) (hzero : b ≠ 0) :
    (ofRank s a / ofRank t b : Binary f) = ofRank (s != t) (f.nearestRank (f.units a) (f.units b)) := by
  change Binary.div (ofRank s a) (ofRank t b) = _
  simp only [Binary.div, ofRank, Nat.min_eq_left ha.le, Nat.min_eq_left hb.le, ha.ne, hb.ne, hzero, if_false]
  rfl

theorem convert_ofRank (s : Bool) (ha : a < f.infinity) :
    (ofRank s a : Binary f).convert = (ofRank s (g.nearestRank (f.units a) f.one) : Binary g) := by
  simp only [convert, ofRank, Nat.min_eq_left ha.le, ha.ne, if_false]
  rfl

theorem isFinite_ofRank (s : Bool) (ha : a < f.infinity) : (ofRank s a : Binary f).isFinite = true := by
  simp [isFinite, ofRank, Nat.min_eq_left ha.le, ha]

theorem isZero_ofRank (s : Bool) (ha : a < f.infinity) (hzero : a ≠ 0) : (ofRank s a : Binary f).isZero = false := by
  simp [isZero, ofRank, Nat.min_eq_left ha.le, hzero]

theorem ofRank_val (s : Bool) (rank : Fin (f.infinity + 1)) : (ofRank s rank : Binary f) = .number s rank := by
  have hle : rank.val ≤ f.infinity := Nat.le_of_lt_succ rank.isLt
  simp [ofRank, Nat.min_eq_left hle]

theorem ofRank_inj {f : BinaryFormat} {a b : Nat} {s t : Bool} (ha : a ≤ f.infinity) (hb : b ≤ f.infinity)
    (h : (ofRank s a : Binary f) = ofRank t b) : a = b := by
  simp only [ofRank, Nat.min_eq_left ha, Nat.min_eq_left hb, number.injEq, Fin.mk.injEq] at h
  exact h.2

end Binary

namespace BinaryFormat

variable {num den n : Nat}

/-! ## Double precision -/

/-- Half a unit in the last place of a double, as a part of the number. -/
def roundoff : ℚ := 1 / 2 ^ 53

theorem roundoff_eq : (1 / (2 * double.binade) : ℚ) = roundoff := by
  norm_num [binade, double, roundoff]

/-- The exponent of the greatest power of ten that is a double. -/
def greatestExponent : Nat := 308

def greatestPower : Nat := 10 ^ greatestExponent

theorem pow_le_greatestPower {j : Nat} (hj : j ≤ greatestExponent) : 10 ^ j ≤ greatestPower :=
  Nat.pow_le_pow_right (by decide) hj

/-- There is room above the whole numbers that a reader takes. -/
theorem two_mul_le_greatestPower (hfits : n < UInt64.size) : 2 * n ≤ greatestPower :=
  (Nat.mul_le_mul_left 2 hfits.le).trans (le_trans (by decide) (pow_le_greatestPower (j := 20) (by decide)))

theorem le_greatestPower (hfits : n < UInt64.size) : n ≤ greatestPower :=
  (Nat.le_mul_of_pos_left n two_pos).trans (two_mul_le_greatestPower hfits)

theorem double_spans : double.Spans 324 greatestExponent := spans.2

theorem greatestPower_lt : 2 * (greatestPower * double.one) < double.ceiling (double.infinity - 1) := by
  rw [greatestPower]
  exact double_spans.isFinite

theorem inv_greatestPower_le {j : Nat} (hj : j ≤ greatestExponent) : (greatestPower : ℚ)⁻¹ ≤ (10 ^ j)⁻¹ :=
  inv_anti₀ (by positivity) (by exact_mod_cast pow_le_greatestPower hj)

theorem double_finite (hden : 0 < den) (h : num ≤ greatestPower * den) :
    double.nearestRank num den < double.infinity := by
  have hrank : double.nearestRank num den ≤ double.infinity - 1 := by
    refine nearestRank_le_of_lt hden ?_
    calc 2 * (num * double.one) ≤ 2 * (greatestPower * den * double.one) := by gcongr
      _ = 2 * (greatestPower * double.one) * den := by ring
      _ < double.ceiling (double.infinity - 1) * den := Nat.mul_lt_mul_of_pos_right greatestPower_lt hden
  have hpositive : 0 < double.infinity := by decide
  omega

/-- Three times the inverse of the greatest power has all its bits. -/
theorem double_normal : 10 * double.binade * greatestPower ≤ 29 * double.one := by
  rw [greatestPower]
  exact double_spans.isNormal

/-- A ratio is rounded once if it is between the greatest power and about the inverse of it. -/
theorem double_rounded {ε q : ℚ} (hden : 0 < den) (hlow : 29 / 10 * (greatestPower : ℚ)⁻¹ ≤ num / den)
    (hhigh : (num / den : ℚ) ≤ greatestPower) (hwithin : IsWithin ε (num / den) q) :
    double.nearestRank num den < double.infinity ∧
      IsWithin (roundoff + ε + roundoff * ε) (double.magnitude (double.nearestRank num den)) q := by
  have hden' : (0 : ℚ) < den := Nat.cast_pos.2 hden
  have hpower : (0 : ℚ) < greatestPower := Nat.cast_pos.2 (Nat.pow_pos (by decide))
  rw [div_le_iff₀ hden'] at hhigh
  rw [le_div_iff₀ hden', mul_assoc, ← div_eq_inv_mul, mul_div_assoc', div_le_iff₀ hpower] at hlow
  have hfinite : double.nearestRank num den < double.infinity := double_finite hden (by exact_mod_cast hhigh)
  have hscaled : 29 * den ≤ 10 * (num * greatestPower) := by
    rw [← Nat.cast_le (α := ℚ)]
    push_cast
    linarith
  have hnormal : double.binade * den ≤ num * double.one := by
    refine Nat.le_of_mul_le_mul_left ?_ (by decide : 0 < 29)
    calc 29 * (double.binade * den) = double.binade * (29 * den) := by ring
      _ ≤ double.binade * (10 * (num * greatestPower)) := Nat.mul_le_mul_left _ hscaled
      _ = num * (10 * double.binade * greatestPower) := by ring
      _ ≤ num * (29 * double.one) := Nat.mul_le_mul_left _ double_normal
      _ = 29 * (num * double.one) := by ring
  have hrounded := magnitude_nearestRank hden hfinite hnormal
  rw [roundoff_eq] at hrounded
  exact ⟨hfinite, hrounded.trans hwithin (by norm_num [roundoff])⟩

/-- A whole number is converted with the error of one rounding. -/
theorem double_within (hpos : 0 < n) (hle : n ≤ greatestPower) :
    IsWithin roundoff (double.magnitude (double.nearestRank n 1)) n := by
  have hratio : (n / (1 : Nat) : ℚ) = n := by rw [Nat.cast_one, div_one]
  have hinv := inv_greatestPower_le (j := 1) (by decide)
  have hone : (1 : ℚ) ≤ n := Nat.one_le_cast.2 hpos
  obtain ⟨-, hwithin⟩ := double_rounded (q := n) Nat.one_pos (by rw [hratio]; linarith)
    (by rw [hratio]; exact Nat.cast_le.2 hle) (by rw [hratio]; exact .refl _)
  rwa [mul_zero, add_zero, add_zero] at hwithin

theorem greatestPower_le_units : greatestPower * double.one ≤ double.units double.infinity := by
  have hgreatest := greatestPower_lt
  have hlast : double.ceiling (double.infinity - 1) ≤ 2 * double.units double.infinity := by
    have hmono := double.units_strictMono.monotone (Nat.sub_le double.infinity 1)
    rw [ceiling, Nat.sub_add_cancel (by decide)]
    omega
  omega

/-- A whole number of up to 53 bits, times a power of two, is converted exactly. -/
theorem double_exact {s : Nat} (hn : n < 2 ^ 53) (hle : n * 2 ^ s ≤ greatestPower) :
    double.magnitude (double.nearestRank (n * 2 ^ s) 1) = (n * 2 ^ s : Nat) := by
  have hbits : 2 * double.binade = 2 ^ 53 := by decide
  obtain ⟨rank, hrank⟩ := double.exists_units_eq (hn.trans_eq hbits.symm) (s + double.scale)
  have hexact : double.units rank * 1 = n * 2 ^ s * double.one := by
    rw [hrank, one, Nat.pow_eq]
    ring
  have hfinite : rank ≤ double.infinity := by
    refine double.units_strictMono.le_iff_le.1 (le_trans ?_ greatestPower_le_units)
    rw [← Nat.mul_one (double.units rank), hexact]
    exact Nat.mul_le_mul_right _ hle
  rw [nearestRank_of_exact Nat.one_pos hfinite hexact, magnitude]
  have hone : (double.one : ℚ) ≠ 0 := Nat.cast_ne_zero.2 double.one_pos.ne'
  rw [div_eq_iff hone, ← Nat.cast_mul, ← hexact, Nat.mul_one]

theorem double_exact_pow {j : Nat} (hj : j ≤ 22) :
    double.magnitude (double.nearestRank (10 ^ j) 1) = (10 ^ j : Nat) := by
  have hsplit : 10 ^ j = 5 ^ j * 2 ^ j := by rw [← Nat.mul_pow]
  have hfive : 5 ^ j < 2 ^ 53 := lt_of_le_of_lt (Nat.pow_le_pow_right (by decide) hj) (by decide)
  have hle : 5 ^ j * 2 ^ j ≤ greatestPower := by
    rw [← hsplit]
    exact pow_le_greatestPower (hj.trans (by decide))
  rw [hsplit]
  exact double_exact hfive hle

end BinaryFormat

end SettingsRelay
