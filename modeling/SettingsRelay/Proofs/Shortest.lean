import SettingsRelay.Decimal.Shortest
import SettingsRelay.Proofs.Rounding

/-!
# Shortest decimals round back

The search for the shortest decimal of a number goes from coarse grids to fine ones and stops at
the first grid with a point among the reals that round to the number. It stops in time, and what
it gives rounds to the number.
-/

namespace SettingsRelay

def Decimal.numerator (d : Decimal) : Nat := d.significand * 10 ^ d.exponent.toNat

def Decimal.denominator (d : Decimal) : Nat := 10 ^ (-d.exponent).toNat

theorem Decimal.denominator_pos (d : Decimal) : 0 < d.denominator := Nat.pow_pos (by decide)

/-- Whether the finest grid of a format has a point near every number. -/
def BinaryFormat.IsFine (f : BinaryFormat) : Prop := 2 * f.one < 10 ^ (f.scale / 3)

theorem BinaryFormat.Spans.fine {f : BinaryFormat} {least greatest : Nat} (h : f.Spans least greatest) : f.IsFine :=
  lt_of_le_of_lt (Nat.le_mul_of_pos_left _ (Nat.pow_pos (by decide))) h.isFine

theorem BinaryFormat.isFine_single : single.IsFine := spans.1.fine

theorem BinaryFormat.isFine_double : double.IsFine := spans.2.fine

namespace Basin

variable {b : Basin} {tie : TieRule} {grid n : Nat}

theorem holds_of_pointOn? (h : b.pointOn? tie grid = some n) : b.holds (n * grid) = true := by
  unfold pointOn? at h
  dsimp only at h
  split at h
  · cases h
  · next hbelow _ => cases h; exact hbelow
  · next _ habove => cases h; exact habove
  · next hbelow habove =>
    split at h
    · cases h; exact hbelow
    split at h
    · cases h; exact habove
    cases tie with
    | away => cases h; exact habove
    | even =>
      cases h
      split
      · exact hbelow
      · exact habove

theorem holds_iff {x : Nat} : b.holds x = true ↔
    b.low ≤ x ∧ x ≤ b.high ∧ (b.closed = false → x ≠ b.low ∧ x ≠ b.high) := by
  unfold holds
  cases b.closed
  · simp
    omega
  · simp

def distance (b : Basin) (x : Nat) : Nat := (x - b.value) + (b.value - x)

/-- The point that is taken on a grid is the nearest one in the basin. -/
theorem pointOn?_nearest (hlow : b.low < b.value) (hhigh : b.value < b.high) (hgrid : 0 < grid)
    (h : b.pointOn? tie grid = some n) {k : Nat} (hk : b.holds (k * grid) = true) :
    b.distance (n * grid) ≤ b.distance (k * grid) := by
  have hbelow : b.value / grid * grid ≤ b.value := Nat.div_mul_le_self _ _
  have habove : b.value < (b.value / grid + 1) * grid := (Nat.div_lt_iff_lt_mul hgrid).1 (Nat.lt_succ_self _)
  obtain ⟨hk₁, hk₂, hk₃⟩ := holds_iff.1 hk
  -- a point in the basin lies beyond one of the two neighbours, which is then in the basin as well
  have hside : k * grid ≤ b.value / grid * grid ∧ b.holds (b.value / grid * grid) = true ∨
      (b.value / grid + 1) * grid ≤ k * grid ∧ b.holds ((b.value / grid + 1) * grid) = true := by
    rcases Nat.lt_or_ge (b.value / grid) k with hlt | hge
    · have hle : (b.value / grid + 1) * grid ≤ k * grid := Nat.mul_le_mul_right grid hlt
      exact .inr ⟨hle, holds_iff.2 ⟨by omega, by omega, fun hopen => by have := hk₃ hopen; omega⟩⟩
    · have hle : k * grid ≤ b.value / grid * grid := Nat.mul_le_mul_right grid hge
      exact .inl ⟨hle, holds_iff.2 ⟨by omega, by omega, fun hopen => by have := hk₃ hopen; omega⟩⟩
  unfold distance
  unfold pointOn? at h
  dsimp only at h
  generalize k * grid = point at *
  split at h
  · cases h
  · next hno =>
    cases h
    rcases hside with ⟨hle, -⟩ | ⟨-, hyes⟩
    · omega
    · rw [hno] at hyes
      cases hyes
  · next hno _ =>
    cases h
    rcases hside with ⟨-, hyes⟩ | ⟨hle, -⟩
    · rw [hno] at hyes
      cases hyes
    · omega
  · split at h
    · cases h
      omega
    split at h
    · cases h
      omega
    cases tie with
    | away =>
      cases h
      omega
    | even =>
      cases h
      split <;> omega

/-- A grid whose steps are shorter than the way up from the number has a point in the basin. -/
theorem high_le_of_pointOn?_eq_none (hlow : b.low ≤ b.value) (hgrid : 0 < grid) (h : b.pointOn? tie grid = none) :
    b.high ≤ b.value + grid := by
  unfold pointOn? at h
  dsimp only at h
  split at h
  · next habove =>
    have hfar : b.value < (b.value / grid + 1) * grid ∧ (b.value / grid + 1) * grid ≤ b.value + grid :=
      ⟨(Nat.div_lt_iff_lt_mul hgrid).1 (Nat.lt_succ_self _), by
        rw [Nat.add_mul, Nat.one_mul]
        exact Nat.add_le_add_right (Nat.div_mul_le_self _ _) _⟩
    by_contra hlt
    rw [holds_iff.2 ⟨by omega, by omega, fun _ => by omega⟩] at habove
    cases habove
  · cases h
  · cases h
  · split at h
    · cases h
    split at h
    · cases h
    cases tie <;> cases h

/-- The search stops at the coarsest grid that has a point in the basin, if the finest one has. -/
theorem search_spec (hfinest : b.pointOn? tie b.step ≠ none) (level : Nat) :
    ∃ found n, b.search tie level = ⟨n, (found : Nat) - (b.depth : Int)⟩ ∧ found ≤ level ∧
      b.pointOn? tie (10 ^ found * b.step) = some n ∧
      (found < level → b.pointOn? tie (10 ^ (found + 1) * b.step) = none) := by
  induction level with
  | zero =>
    obtain ⟨n, hn⟩ := Option.ne_none_iff_exists'.1 hfinest
    refine ⟨0, n, ?_, Nat.le_refl 0, ?_, fun h => absurd h (Nat.lt_irrefl 0)⟩
    · rw [search, hn]
      simp
    · rw [Nat.pow_zero, Nat.one_mul, hn]
  | succ level ih =>
    rw [search]
    cases hpoint : b.pointOn? tie (Nat.pow 10 (level + 1) * b.step) with
    | some n => exact ⟨level + 1, n, rfl, Nat.le_refl _, hpoint, fun h => absurd h (Nat.lt_irrefl _)⟩
    | none =>
      obtain ⟨found, n, hsearch, hle, hfound, hnone⟩ := ih
      refine ⟨found, n, hsearch, hle.trans (Nat.le_succ _), hfound, fun _ => ?_⟩
      rcases Nat.lt_or_ge found level with hlt | hge
      · exact hnone hlt
      · obtain rfl : found = level := Nat.le_antisymm hle hge
        exact hpoint

end Basin

namespace Basin

variable {f : BinaryFormat} {rank : Nat}

theorem low_ofRank : (ofRank f rank).low = f.floor rank * 10 ^ (f.scale / 3) := rfl

theorem high_ofRank : (ofRank f rank).high = f.ceiling rank * 10 ^ (f.scale / 3) := rfl

theorem high_ofRank_eq_value_add :
    (ofRank f rank).high = (ofRank f rank).value + f.spacing rank * 10 ^ (f.scale / 3) := by
  change (f.units rank + f.units (rank + 1)) * 10 ^ _ = 2 * f.units rank * 10 ^ _ + _
  rw [f.units_succ]
  ring

theorem low_ofRank_le_value : (ofRank f rank).low ≤ (ofRank f rank).value := by
  have hunits : f.units (rank - 1) ≤ f.units rank := f.units_strictMono.monotone (Nat.sub_le rank 1)
  exact Nat.mul_le_mul_right _ (by omega)

theorem low_ofRank_add (h : 0 < rank) :
    (ofRank f rank).low + f.spacing (rank - 1) * 10 ^ (f.scale / 3) = (ofRank f rank).value := by
  obtain ⟨below, rfl⟩ := Nat.exists_eq_succ_of_ne_zero h.ne'
  change (f.units (below + 1 - 1) + f.units (below + 1)) * 10 ^ _ + _ = 2 * f.units (below + 1) * 10 ^ _
  rw [Nat.add_sub_cancel, f.units_succ]
  ring

theorem low_ofRank_lt_value (h : 0 < rank) : (ofRank f rank).low < (ofRank f rank).value := by
  have hlow := low_ofRank_add (f := f) h
  have hspacing : 0 < f.spacing (rank - 1) * 10 ^ (f.scale / 3) :=
    Nat.mul_pos (f.spacing_pos _) (Nat.pow_pos (by decide))
  omega

/-- The coarsest grid of the search has no positive point in the basin. -/
theorem high_lt_coarsest {b : Basin} (hstep : 0 < b.step) : b.high < 10 ^ b.coarsest * b.step := by
  have hquot : b.high / b.step < 10 ^ b.coarsest :=
    calc b.high / b.step < 2 ^ ((b.high / b.step).log2 + 1) := Nat.lt_log2_self
      _ ≤ 2 ^ (3 * b.coarsest) := Nat.pow_le_pow_right (by decide) (by unfold coarsest; omega)
      _ = 8 ^ b.coarsest := Nat.pow_mul 2 3 _
      _ ≤ 10 ^ b.coarsest := Nat.pow_le_pow_left (by decide) _
  exact (Nat.div_lt_iff_lt_mul hstep).1 hquot

end Basin

namespace Decimal

variable {f : BinaryFormat} {tie : TieRule} {rank : Nat}

/-- The shortest decimal of a number is a point among the reals that round to the number, and the next
coarser grid is at least as coarse as the numbers are there. -/
theorem shortest_spec (hf : f.IsFine) (tie : TieRule) (rank : Nat) :
    ∃ found, (shortest f tie rank).exponent = (found : Nat) - ((f.scale / 3 : Nat) : Int) ∧
      (Basin.ofRank f rank).holds ((shortest f tie rank).significand * (10 ^ found * (2 * f.one))) = true ∧
      f.spacing rank * 10 ^ (f.scale / 3) ≤ 10 ^ (found + 1) * (2 * f.one) ∧
      (0 < rank → ∀ k, (Basin.ofRank f rank).holds (k * (10 ^ found * (2 * f.one))) = true →
        (Basin.ofRank f rank).distance ((shortest f tie rank).significand * (10 ^ found * (2 * f.one))) ≤
          (Basin.ofRank f rank).distance (k * (10 ^ found * (2 * f.one)))) := by
  let b := Basin.ofRank f rank
  have hstep : 0 < b.step := Nat.mul_pos (by decide) f.one_pos
  have hhigh : b.high = b.value + f.spacing rank * 10 ^ (f.scale / 3) := Basin.high_ofRank_eq_value_add
  have hlow : b.low ≤ b.value := Basin.low_ofRank_le_value
  have hfinest : b.pointOn? tie b.step ≠ none := fun hnone => by
    have hclose := Basin.high_le_of_pointOn?_eq_none hlow hstep hnone
    have hspacing : 10 ^ (f.scale / 3) ≤ f.spacing rank * 10 ^ (f.scale / 3) :=
      Nat.le_mul_of_pos_left _ (f.spacing_pos rank)
    have hfine : b.step < 10 ^ (f.scale / 3) := hf
    omega
  obtain ⟨found, n, hsearch, hle, hpoint, hnone⟩ := Basin.search_spec hfinest b.coarsest
  refine ⟨found, by rw [shortest, hsearch]; rfl, ?_, ?_, fun hpos k hk => ?_⟩
  · rw [shortest, hsearch]
    exact Basin.holds_of_pointOn? hpoint
  · rcases Nat.lt_or_ge found b.coarsest with hlt | hge
    · have hclose := Basin.high_le_of_pointOn?_eq_none hlow (Nat.mul_pos (Nat.pow_pos (by decide)) hstep) (hnone hlt)
      have : b.step = 2 * f.one := rfl
      rw [this] at hclose
      omega
    · calc f.spacing rank * 10 ^ (f.scale / 3) ≤ b.high := by omega
        _ ≤ 10 ^ b.coarsest * b.step := (Basin.high_lt_coarsest hstep).le
        _ ≤ 10 ^ (found + 1) * (2 * f.one) :=
          Nat.mul_le_mul_right _ (Nat.pow_le_pow_right (by decide) (hge.trans (Nat.le_succ _)))
  · rw [shortest, hsearch]
    have hspacing : 0 < f.spacing rank * 10 ^ (f.scale / 3) :=
      Nat.mul_pos (f.spacing_pos rank) (Nat.pow_pos (by decide))
    have hup : b.value < b.high := by omega
    exact Basin.pointOn?_nearest (Basin.low_ofRank_lt_value hpos) hup (Nat.mul_pos (Nat.pow_pos (by decide)) hstep)
      hpoint hk

/-- Near the points halfway to a number's neighbours there are shortest decimals only on grids that are as
coarse as the numbers: a finer grid has a point nearer to the number. -/
theorem shortest_grid (hf : f.IsFine) (tie : TieRule) (hpos : 0 < rank) :
    ∃ found, (shortest f tie rank).exponent = (found : Nat) - ((f.scale / 3 : Nat) : Int) ∧
      (8 * ((Basin.ofRank f rank).high - (shortest f tie rank).significand * (10 ^ found * (2 * f.one))) ≤
          f.spacing rank * 10 ^ (f.scale / 3) →
        f.spacing rank * 10 ^ (f.scale / 3) ≤ 10 ^ found * (2 * f.one)) ∧
      (8 * ((shortest f tie rank).significand * (10 ^ found * (2 * f.one)) - (Basin.ofRank f rank).low) ≤
          f.spacing (rank - 1) * 10 ^ (f.scale / 3) →
        f.spacing (rank - 1) * 10 ^ (f.scale / 3) ≤ 10 ^ found * (2 * f.one)) := by
  obtain ⟨found, hexponent, hholds, -, hnearest⟩ := shortest_spec hf tie rank
  refine ⟨found, hexponent, ?_⟩
  have hgrid : 0 < 10 ^ found * (2 * f.one) :=
    Nat.mul_pos (Nat.pow_pos (by decide)) (Nat.mul_pos (by decide) f.one_pos)
  have hfine : 0 < 10 ^ (f.scale / 3) := Nat.pow_pos (by decide)
  have hlow := Basin.low_ofRank_add (f := f) hpos
  have hhigh : (Basin.ofRank f rank).high = _ := Basin.high_ofRank_eq_value_add
  have hdouble := Nat.mul_le_mul_right (10 ^ (f.scale / 3)) (BinaryFormat.spacing_le_two_mul (f := f) rank)
  have hmono := Nat.mul_le_mul_right (10 ^ (f.scale / 3)) (BinaryFormat.spacing_mono (f := f) (Nat.sub_le rank 1))
  have hspacing := Nat.mul_pos (f.spacing_pos rank) hfine
  have hspacing' := Nat.mul_pos (f.spacing_pos (rank - 1)) hfine
  obtain ⟨hpoint₁, hpoint₂, -⟩ := Basin.holds_iff.1 hholds
  have hprev := hnearest hpos ((shortest f tie rank).significand - 1)
  have hnext := hnearest hpos ((shortest f tie rank).significand + 1)
  rw [Nat.sub_one_mul, Basin.holds_iff] at hprev
  rw [Nat.succ_mul, Basin.holds_iff] at hnext
  unfold Basin.distance at hprev hnext
  rw [Nat.mul_assoc] at hdouble
  constructor
  · intro hnear
    by_contra hlt
    have := hprev ⟨by omega, by omega, fun _ => by omega⟩
    omega
  · intro hnear
    by_contra hlt
    have := hnext ⟨by omega, by omega, fun _ => by omega⟩
    omega

theorem significand_shortest_pos (hf : f.IsFine) (hrank : 0 < rank) : 0 < (shortest f tie rank).significand := by
  obtain ⟨found, -, hholds, -, -⟩ := shortest_spec hf tie rank
  refine Nat.pos_of_ne_zero fun hzero => ?_
  have hlow := (Basin.holds_iff.1 hholds).1
  rw [hzero, Nat.zero_mul, Basin.low_ofRank] at hlow
  have hfloor : 0 < f.floor rank := Nat.add_pos_right _ (f.units_pos hrank)
  exact absurd hlow (Nat.not_le.2 (Nat.mul_pos hfloor (Nat.pow_pos (by decide))))

theorem compare_of_scaled {p q s t : Nat} (h : p * s = q * t) (ht : 0 < t) (hs : 0 < s) (bound : Nat) :
    (bound * s ≤ q ↔ bound * t ≤ p) ∧ (q ≤ bound * s ↔ p ≤ bound * t) := by
  constructor
  · calc bound * s ≤ q ↔ bound * s * t ≤ q * t := (Nat.mul_le_mul_right_iff ht).symm
      _ ↔ bound * t * s ≤ p * s := by rw [h, Nat.mul_right_comm]
      _ ↔ bound * t ≤ p := Nat.mul_le_mul_right_iff hs
  · calc q ≤ bound * s ↔ q * t ≤ bound * s * t := (Nat.mul_le_mul_right_iff ht).symm
      _ ↔ p * s ≤ bound * t * s := by rw [h, Nat.mul_right_comm]
      _ ↔ p ≤ bound * t := Nat.mul_le_mul_right_iff hs

theorem surrounds_shortest (hf : f.IsFine) (tie : TieRule) (rank : Nat) :
    f.Surrounds rank (shortest f tie rank).numerator (shortest f tie rank).denominator := by
  obtain ⟨found, hexponent, hholds, -, -⟩ := shortest_spec hf tie rank
  generalize shortest f tie rank = d at *
  obtain ⟨hlow, hhigh, hopen⟩ := Basin.holds_iff.1 hholds
  rw [Basin.low_ofRank] at hlow hopen
  rw [Basin.high_ofRank] at hhigh hopen
  -- the point on the finest grid, without the finest grid's depth
  have hscale : d.significand * (10 ^ found * (2 * f.one)) * d.denominator =
      2 * (d.numerator * f.one) * 10 ^ (f.scale / 3) := by
    have hpowers : 10 ^ found * d.denominator = 10 ^ d.exponent.toNat * 10 ^ (f.scale / 3) := by
      rw [denominator, ← Nat.pow_add, ← Nat.pow_add]
      congr 1
      omega
    calc d.significand * (10 ^ found * (2 * f.one)) * d.denominator =
        2 * d.significand * f.one * (10 ^ found * d.denominator) := by ring
      _ = 2 * (d.numerator * f.one) * 10 ^ (f.scale / 3) := by rw [hpowers, numerator]; ring
  generalize d.significand * (10 ^ found * (2 * f.one)) = point at *
  have hfine : 0 < 10 ^ (f.scale / 3) := Nat.pow_pos (by decide)
  have hcompare := fun bound => compare_of_scaled hscale hfine d.denominator_pos bound
  refine ⟨(hcompare _).1.2 hlow, (hcompare _).2.2 hhigh, fun hodd heq => ?_, fun hodd heq => ?_⟩
  all_goals
    obtain ⟨hfloor, hceiling⟩ := hopen (decide_eq_false (by omega))
  · exact hfloor (((hcompare _).2.1 heq.ge).antisymm hlow)
  · exact hceiling (hhigh.antisymm ((hcompare _).1.1 heq.ge))

/-- A shortest decimal has at most about one digit more than the numbers there have. -/
theorem significand_shortest_le (hf : f.IsFine) (tie : TieRule) (rank : Nat) :
    (shortest f tie rank).significand ≤ 40 * f.binade := by
  obtain ⟨found, -, hholds, hcoarser, -⟩ := shortest_spec hf tie rank
  have hhigh := (Basin.holds_iff.1 hholds).2.1
  rw [Basin.high_ofRank] at hhigh
  have hgrid : 0 < 10 ^ found * (2 * f.one) :=
    Nat.mul_pos (Nat.pow_pos (by decide)) (Nat.mul_pos (by decide) f.one_pos)
  have hceiling : f.ceiling rank ≤ 4 * f.binade * f.spacing rank := by
    have hnext := BinaryFormat.units_succ_le (f := f) rank
    have hself : f.units rank ≤ f.units (rank + 1) := (f.units_strictMono rank.lt_succ_self).le
    rw [BinaryFormat.ceiling]
    linarith
  refine Nat.le_of_mul_le_mul_right ?_ hgrid
  calc (shortest f tie rank).significand * (10 ^ found * (2 * f.one)) ≤
      f.ceiling rank * 10 ^ (f.scale / 3) := hhigh
    _ ≤ 4 * f.binade * f.spacing rank * 10 ^ (f.scale / 3) := Nat.mul_le_mul_right _ hceiling
    _ = 4 * f.binade * (f.spacing rank * 10 ^ (f.scale / 3)) := Nat.mul_assoc _ _ _
    _ ≤ 4 * f.binade * (10 ^ (found + 1) * (2 * f.one)) := Nat.mul_le_mul_left _ hcoarser
    _ = 40 * f.binade * (10 ^ found * (2 * f.one)) := by ring

/-- The grids with a power of ten that is much less than the least number are passed by. -/
theorem exponent_shortest_ge {least greatest : Nat} (hf : f.Spans least greatest) (tie : TieRule) (rank : Nat) :
    -(least : Int) ≤ (shortest f tie rank).exponent := by
  obtain ⟨found, hexponent, -, hcoarser, -⟩ := shortest_spec hf.fine tie rank
  by_contra hlt
  have hgrid : 10 ^ (found + 1) * (2 * f.one) ≤ 10 ^ (f.scale / 3 - least) * (2 * f.one) :=
    Nat.mul_le_mul_right _ (Nat.pow_le_pow_right (by decide) (by omega))
  have hspacing := Nat.le_mul_of_pos_left (10 ^ (f.scale / 3)) (f.spacing_pos rank)
  have hfine := hf.isFine
  omega

/-- No power of ten in a shortest decimal is greater than the greatest number. -/
theorem exponent_shortest_le {least greatest : Nat} (hf : f.Spans least greatest) (tie : TieRule) (hpos : 0 < rank)
    (hrank : rank < f.infinity) : (shortest f tie rank).exponent ≤ greatest := by
  by_contra hlt
  have hsurrounds := (surrounds_shortest hf.fine tie rank).le_ceiling
  have hsignificand : 0 < (shortest f tie rank).significand := significand_shortest_pos hf.fine hpos
  have hgreatest := hf.isGreatest
  generalize shortest f tie rank = d at *
  have hexponent : 10 ^ (greatest + 1) ≤ 10 ^ d.exponent.toNat := Nat.pow_le_pow_right (by decide) (by omega)
  have hden : d.denominator = 1 := by
    rw [denominator, show (-d.exponent).toNat = 0 by omega, Nat.pow_zero]
  have hceiling : f.ceiling rank ≤ 2 * f.units f.infinity := by
    have h₁ : f.units rank ≤ f.units f.infinity := f.units_strictMono.monotone hrank.le
    have h₂ : f.units (rank + 1) ≤ f.units f.infinity := f.units_strictMono.monotone hrank
    rw [BinaryFormat.ceiling]
    omega
  have hnumerator : 10 ^ (greatest + 1) ≤ d.numerator := hexponent.trans (Nat.le_mul_of_pos_left _ hsignificand)
  have := Nat.mul_le_mul_right f.one hnumerator
  rw [hden] at hsurrounds
  omega

end Decimal

end SettingsRelay
