import SettingsRelay.Proofs.Accuracy
import SettingsRelay.Settings.Validation

/-!
# The values of numbers

The rational number that a datum stands for, with what the checks of a datum mean for it, and the range beyond
which quotients become infinite. Infinity is met again below: a number divided by it is zero.
-/

namespace SettingsRelay

namespace BinaryFormat

variable {f : BinaryFormat} {num den rank : Nat}

theorem magnitude_zero (f : BinaryFormat) : f.magnitude 0 = 0 := by
  rw [magnitude, f.units_zero, Nat.cast_zero, zero_div]

theorem magnitude_strictMono (f : BinaryFormat) : StrictMono f.magnitude := fun a b h => by
  have hone : (0 : ℚ) < f.one := Nat.cast_pos.2 f.one_pos
  exact div_lt_div_of_pos_right (Nat.cast_lt.2 (f.units_strictMono h)) hone

theorem magnitude_pos (hpos : 0 < rank) : 0 < f.magnitude rank := by
  rw [← f.magnitude_zero]
  exact f.magnitude_strictMono hpos

/-! ## Overflow -/

/-- The least magnitude that is rounded to infinity: the point halfway above the greatest number. -/
def overflow (f : BinaryFormat) : ℚ := f.ceiling (f.infinity - 1) / (2 * f.one)

theorem overflow_pos (f : BinaryFormat) : 0 < f.overflow :=
  div_pos (Nat.cast_pos.2 (f.ceiling_pos _)) (mul_pos two_pos (Nat.cast_pos.2 f.one_pos))

theorem magnitude_lt_overflow (hrank : rank < f.infinity) : f.magnitude rank < f.overflow := by
  have hone : (0 : ℚ) < f.one := Nat.cast_pos.2 f.one_pos
  have hlast : f.units rank ≤ f.units (f.infinity - 1) := f.units_strictMono.monotone (by omega)
  have hnext : f.units (f.infinity - 1) < f.units (f.infinity - 1 + 1) := f.units_strictMono (Nat.lt_succ_self _)
  have hceiling : 2 * f.units rank < f.ceiling (f.infinity - 1) := by
    rw [ceiling]
    omega
  rw [magnitude, overflow, div_lt_div_iff₀ hone (by positivity)]
  calc (f.units rank * (2 * f.one) : ℚ) = (2 * f.units rank : Nat) * f.one := by
        push_cast
        ring
    _ < f.ceiling (f.infinity - 1) * f.one := mul_lt_mul_of_pos_right (Nat.cast_lt.2 hceiling) hone

/-- A format in which the rank before infinity is odd, so that a tie between the two goes to infinity. -/
def HasOddLast (f : BinaryFormat) : Prop := (f.infinity - 1) % 2 = 1

theorem HasOddLast.infinity_pos (hodd : f.HasOddLast) : 0 < f.infinity := by
  unfold HasOddLast at hodd
  omega

theorem single_hasOddLast : single.HasOddLast := by
  unfold HasOddLast
  decide

theorem nearestRank_lt_infinity_iff (hodd : f.HasOddLast) (hden : 0 < den) :
    f.nearestRank num den < f.infinity ↔ (num / den : ℚ) < f.overflow := by
  have hdouble : (0 : ℚ) < 2 * f.one := mul_pos two_pos (Nat.cast_pos.2 f.one_pos)
  have hpos := hodd.infinity_pos
  rw [overflow, lt_div_iff₀ hdouble, mul_comm]
  constructor
  · intro hfinite
    have hsurrounds := surrounds_nearestRank hden hfinite
    generalize f.nearestRank num den = rank at *
    have hlt : 2 * (num * f.one) < f.ceiling (f.infinity - 1) * den := by
      rcases Nat.lt_or_ge rank (f.infinity - 1) with hbefore | hlast
      · have hmono : f.ceiling rank < f.ceiling (f.infinity - 1) :=
          Nat.add_lt_add (f.units_strictMono hbefore) (f.units_strictMono (by omega))
        exact hsurrounds.le_ceiling.trans_lt (Nat.mul_lt_mul_of_pos_right hmono hden)
      · obtain rfl : rank = f.infinity - 1 := by omega
        exact lt_of_le_of_ne hsurrounds.le_ceiling (hsurrounds.ceiling_ne hodd)
    rw [← mul_div_assoc, div_lt_iff₀ (Nat.cast_pos.2 hden)]
    rw [← Nat.cast_lt (α := ℚ)] at hlt
    push_cast at hlt
    linarith
  · intro hlt
    have hle := nearestRank_le_of_div_lt hden hlt
    omega

end BinaryFormat

namespace Binary

open BinaryFormat

variable {f : BinaryFormat} {a b : Nat} {x : Binary f}

/-! ## Values -/

/-- The number that a datum stands for. Infinities and what is not a number stand for zero. -/
def toRat : Binary f → ℚ
  | nan => 0
  | number negative rank =>
    if rank.val < f.infinity then if negative then -f.magnitude rank else f.magnitude rank else 0

theorem toRat_ofRank (ha : a < f.infinity) : (ofRank false a : Binary f).toRat = f.magnitude a := by
  simp [toRat, ofRank, Nat.min_eq_left ha.le, ha]

theorem isNegative_iff (hfinite : x.isFinite = true) : x.isNegative = true ↔ x.toRat < 0 := by
  match x with
  | number negative rank =>
    have hrank : rank.val < f.infinity := of_decide_eq_true hfinite
    have hnonneg := f.magnitude_nonneg rank
    cases negative with
    | false => simp [isNegative, toRat, hrank, hnonneg]
    | true =>
      rcases Nat.eq_zero_or_pos rank.val with hzero | hpos
      · simp [isNegative, toRat, hzero, magnitude_zero]
      · have := magnitude_pos (f := f) hpos
        simp [isNegative, toRat, hrank, hpos.ne', this]

theorem isZero_iff (hfinite : x.isFinite = true) : x.isZero = true ↔ x.toRat = 0 := by
  match x with
  | number negative rank =>
    have hrank : rank.val < f.infinity := of_decide_eq_true hfinite
    rcases Nat.eq_zero_or_pos rank.val with hzero | hpos
    · cases negative <;> simp [isZero, toRat, hzero, magnitude_zero]
    · have := magnitude_pos (f := f) hpos
      cases negative <;> simp [isZero, toRat, hrank, hpos.ne', this.ne']

theorem isFinite_eq_false_iff : x.isFinite = false ↔ x = nan ∨ ∃ negative, x = infinity negative := by
  match x with
  | nan => simp [isFinite]
  | number negative rank =>
    have hinfinite : (number negative rank : Binary f).isFinite = false ↔ rank = Fin.last f.infinity := by
      rw [isFinite, decide_eq_false_iff_not, Nat.not_lt, Fin.ext_iff, Fin.val_last]
      omega
    rw [hinfinite]
    simp [infinity, ofRank, Fin.last]

theorem isFinite_ofRank_iff (negative : Bool) (ha : a ≤ f.infinity) :
    (ofRank negative a : Binary f).isFinite = true ↔ a < f.infinity := by
  simp [isFinite, ofRank, Nat.min_eq_left ha]

/-! ## Quotients of numbers without a sign -/

theorem ofRank_div_infinity (ha : a < f.infinity) :
    (ofRank false a / ofRank false f.infinity : Binary f) = ofRank false 0 := by
  change Binary.div (ofRank false a) (ofRank false f.infinity) = _
  simp only [Binary.div, ofRank, Nat.min_eq_left ha.le, Nat.min_self, ha.ne, if_false, if_true]
  rfl

theorem infinity_div_ofRank (hb : b < f.infinity) :
    (ofRank false f.infinity / ofRank false b : Binary f) = ofRank false f.infinity := by
  change Binary.div (ofRank false f.infinity) (ofRank false b) = _
  simp only [Binary.div, ofRank, infinity, Nat.min_eq_left hb.le, Nat.min_self, hb.ne, if_false, if_true,
    bne_self_eq_false]

theorem ofRank_div_zero (hpos : 0 < a) (ha : a < f.infinity) :
    (ofRank false a / ofRank false 0 : Binary f) = ofRank false f.infinity := by
  have hzero : (0 : Nat) ≠ f.infinity := by omega
  change Binary.div (ofRank false a) (ofRank false 0) = _
  simp only [Binary.div, ofRank, Nat.min_eq_left ha.le, Nat.zero_min, ha.ne, hpos.ne', hzero, if_false, if_true]
  rfl

/-- A quotient of numbers without a sign, of which not both are zero and not both infinite, is a number without a
sign. It is finite if the divisor is infinite, or if the exact quotient is less than the overflow. -/
theorem exists_rank_div (hodd : f.HasOddLast) (ha : a ≤ f.infinity) (hb : b ≤ f.infinity) (hzero : 0 < a ∨ 0 < b)
    (hinfinite : a < f.infinity ∨ b < f.infinity) :
    ∃ rank, rank ≤ f.infinity ∧ (ofRank false a / ofRank false b : Binary f) = ofRank false rank ∧
      (rank < f.infinity ↔
        a < f.infinity ∧ (b = f.infinity ∨ f.magnitude a < f.overflow * f.magnitude b)) := by
  rcases ha.lt_or_eq with hfinite | rfl
  · rcases hb.lt_or_eq with hdivisor | rfl
    · rcases Nat.eq_zero_or_pos b with rfl | hpos
      · have hpositive : 0 < a := hzero.resolve_right (Nat.lt_irrefl 0)
        refine ⟨f.infinity, le_rfl, ofRank_div_zero hpositive hfinite, iff_of_false (Nat.lt_irrefl _) ?_⟩
        rw [magnitude_zero, mul_zero, not_and_or, not_or]
        exact .inr ⟨hdivisor.ne, (f.magnitude_nonneg a).not_gt⟩
      · refine ⟨_, f.nearestRank_le _ _, div_ofRank false false hfinite hdivisor hpos.ne', ?_⟩
        have hunits : (0 : ℚ) < f.units b := Nat.cast_pos.2 (f.units_pos hpos)
        have hone : (0 : ℚ) < f.one := Nat.cast_pos.2 f.one_pos
        rw [nearestRank_lt_infinity_iff hodd (f.units_pos hpos), and_iff_right hfinite, or_iff_right hdivisor.ne,
          magnitude, magnitude, ← mul_div_assoc, div_lt_div_iff_of_pos_right hone, div_lt_iff₀ hunits]
    · exact ⟨0, Nat.zero_le _, ofRank_div_infinity hfinite, iff_of_true hodd.infinity_pos ⟨hfinite, .inl rfl⟩⟩
  · have hdivisor : b < f.infinity := hinfinite.resolve_left (Nat.lt_irrefl _)
    exact ⟨f.infinity, le_rfl, infinity_div_ofRank hdivisor, iff_of_false (Nat.lt_irrefl _) fun h => h.1.false⟩

end Binary

/-! ## What the checks of settings mean -/

namespace Settings

theorem acceptsPageScale_iff {percent : Single} :
    acceptsPageScale percent = true ↔ percent.isFinite = true ∧ 0 ≤ percent.toRat := by
  rw [acceptsPageScale, Bool.and_eq_true, Bool.not_eq_true']
  refine and_congr_right fun hfinite => ?_
  rw [← Bool.not_eq_true, Binary.isNegative_iff hfinite, not_lt]

theorem acceptsDipScale_iff {scale : Double} :
    acceptsDipScale scale = true ↔ scale.isFinite = true ∧ 0 < scale.toRat := by
  rw [acceptsDipScale, Bool.and_eq_true, Bool.and_eq_true, Bool.not_eq_true', Bool.not_eq_true', and_assoc]
  refine and_congr_right fun hfinite => ?_
  rw [← Bool.not_eq_true, ← Bool.not_eq_true, Binary.isNegative_iff hfinite, Binary.isZero_iff hfinite, not_lt,
    lt_iff_le_and_ne, ne_comm]

end Settings

end SettingsRelay
