import Mathlib.Algebra.Order.Ring.Nat
import Mathlib.Order.Monotone.Basic
import Mathlib.Tactic.Linarith
import Mathlib.Tactic.Ring
import SettingsRelay.Binary.Arithmetic

/-!
# Rounding

Ranks follow each other at spacings that are powers of two, so a ratio lies between two neighbours
or on one, and the rank nearest to it is the one around which it lies.
-/

namespace SettingsRelay

namespace BinaryFormat

variable (f : BinaryFormat)

/-- The distance from a rank to the next one, in units. -/
def spacing (rank : Nat) : Nat := 2 ^ (rank / f.binade - 1)

theorem binade_pos : 0 < f.binade := Nat.pow_pos (by decide)

theorem spacing_pos (rank : Nat) : 0 < f.spacing rank := Nat.pow_pos (by decide)

theorem one_pos : 0 < f.one := Nat.pow_pos (by decide)

theorem units_add_mul {m : Nat} (hm : m < f.binade) (e : Nat) :
    f.units (m + (e + 1) * f.binade) = (f.binade + m) * 2 ^ e := by
  have hquot : (m + (e + 1) * f.binade) / f.binade = e + 1 := by
    rw [Nat.add_mul_div_right _ _ f.binade_pos, Nat.div_eq_of_lt hm, Nat.zero_add]
  have hrem : (m + (e + 1) * f.binade) % f.binade = m := by
    rw [Nat.add_mul_mod_self_right, Nat.mod_eq_of_lt hm]
  rw [units, hquot, hrem, if_neg (Nat.succ_ne_zero e)]
  rfl

/-- A rank is below the first binade, or the place of its fraction in the binade of its exponent. -/
theorem rank_cases (rank : Nat) :
    rank < f.binade ∨ ∃ e m, m < f.binade ∧ rank = m + (e + 1) * f.binade := by
  rcases Nat.lt_or_ge rank f.binade with h | h
  · exact .inl h
  · have hquot : 0 < rank / f.binade := Nat.div_pos h f.binade_pos
    refine .inr ⟨rank / f.binade - 1, rank % f.binade, Nat.mod_lt _ f.binade_pos, ?_⟩
    rw [Nat.sub_add_cancel hquot, Nat.mul_comm, Nat.mod_add_div]

theorem spacing_of_lt {rank : Nat} (h : rank < f.binade) : f.spacing rank = 1 := by
  rw [spacing, Nat.div_eq_of_lt h]
  rfl

theorem spacing_add_mul {m : Nat} (hm : m < f.binade) (e : Nat) :
    f.spacing (m + (e + 1) * f.binade) = 2 ^ e := by
  rw [spacing, Nat.add_mul_div_right _ _ f.binade_pos, Nat.div_eq_of_lt hm, Nat.zero_add]
  rfl

theorem units_succ (rank : Nat) : f.units (rank + 1) = f.units rank + f.spacing rank := by
  rcases f.rank_cases rank with h | ⟨e, m, hm, rfl⟩
  · rw [f.spacing_of_lt h, units_eq_self h]
    rcases Nat.lt_or_ge (rank + 1) f.binade with hnext | hnext
    · exact units_eq_self hnext
    · have hlast : rank + 1 = 0 + (0 + 1) * f.binade := by omega
      rw [hlast, f.units_add_mul f.binade_pos]
      omega
  · rw [f.spacing_add_mul hm, f.units_add_mul hm]
    rcases Nat.lt_or_ge (m + 1) f.binade with hnext | hnext
    · rw [show m + (e + 1) * f.binade + 1 = (m + 1) + (e + 1) * f.binade by omega, f.units_add_mul hnext]
      ring
    · have hlast : m + 1 = f.binade := by omega
      rw [show m + (e + 1) * f.binade + 1 = 0 + (e + 1 + 1) * f.binade by rw [← hlast]; ring,
        f.units_add_mul f.binade_pos, show m = f.binade - 1 by omega]
      obtain ⟨b, hb⟩ := Nat.exists_eq_succ_of_ne_zero f.binade_pos.ne'
      rw [hb, Nat.succ_sub_one, Nat.succ_eq_add_one]
      ring

theorem units_strictMono : StrictMono f.units :=
  strictMono_nat_of_lt_succ fun rank => by
    rw [f.units_succ]
    exact Nat.lt_add_of_pos_right (f.spacing_pos rank)

@[simp] theorem units_zero : f.units 0 = 0 := units_eq_self f.binade_pos

theorem units_pos {rank : Nat} (h : 0 < rank) : 0 < f.units rank := by
  rw [← f.units_zero]
  exact f.units_strictMono h

theorem units_binade : f.units f.binade = f.binade := by
  have h := f.units_add_mul f.binade_pos 0
  simpa using h

/-- A number of units lies at or above the rank below it and before the next one. -/
theorem rankBelow_spec (n : Nat) : f.units (f.rankBelow n) ≤ n ∧ n < f.units (f.rankBelow n + 1) := by
  rw [units_succ]
  rcases Nat.lt_or_ge n f.binade with hsmall | hlarge
  · have hshift : n.log2 - f.fractionBits = 0 := by
      rcases Nat.eq_zero_or_pos n with rfl | hpos
      · rw [Nat.log2_zero, Nat.zero_sub]
      · exact Nat.sub_eq_zero_of_le ((Nat.log2_lt hpos.ne').2 hsmall).le
    have hrank : f.rankBelow n = n := by
      rw [rankBelow, hshift, Nat.zero_mul, Nat.add_zero]
      exact Nat.div_one n
    rw [hrank, units_eq_self hsmall, f.spacing_of_lt hsmall]
    exact ⟨Nat.le_refl n, Nat.lt_succ_self n⟩
  · have hpos : n ≠ 0 := (f.binade_pos.trans_le hlarge).ne'
    have hbits : f.fractionBits ≤ n.log2 := (Nat.le_log2 hpos).2 hlarge
    obtain ⟨shift, hshift⟩ : ∃ shift, n.log2 = f.fractionBits + shift := ⟨_, (Nat.add_sub_cancel' hbits).symm⟩
    have hlow : f.binade * 2 ^ shift ≤ n := by
      rw [binade, Nat.pow_eq, ← Nat.pow_add, ← hshift]
      exact Nat.log2_self_le hpos
    have hhigh : n < 2 * f.binade * 2 ^ shift := by
      have := Nat.lt_log2_self (n := n)
      rw [hshift, Nat.pow_succ, Nat.pow_add] at this
      rw [binade, Nat.pow_eq]
      linarith
    have hquot : f.binade ≤ n / 2 ^ shift ∧ n / 2 ^ shift < 2 * f.binade :=
      ⟨(Nat.le_div_iff_mul_le (Nat.two_pow_pos shift)).2 hlow,
        (Nat.div_lt_iff_lt_mul (Nat.two_pow_pos shift)).2 hhigh⟩
    obtain ⟨m, hm⟩ : ∃ m, n / 2 ^ shift = f.binade + m := ⟨_, (Nat.add_sub_cancel' hquot.1).symm⟩
    have hrank : f.rankBelow n = m + (shift + 1) * f.binade := by
      rw [rankBelow, hshift, Nat.add_sub_cancel_left, Nat.pow_eq, hm]
      ring
    have hfraction : m < f.binade := by omega
    rw [hrank, f.units_add_mul hfraction, f.spacing_add_mul hfraction, ← hm]
    exact ⟨Nat.div_mul_le_self n _, Nat.lt_div_mul_add (Nat.two_pow_pos shift)⟩

/-- A whole number no longer than the fractions of the format, times a power of two, is that of a rank.
-/
theorem exists_units_eq {n : Nat} (hn : n < 2 * f.binade) (s : Nat) : ∃ rank, f.units rank = n * 2 ^ s := by
  obtain ⟨hlow, hhigh⟩ := f.rankBelow_spec (n * 2 ^ s)
  refine ⟨f.rankBelow (n * 2 ^ s), ?_⟩
  generalize f.rankBelow (n * 2 ^ s) = rank at *
  rw [units_succ] at hhigh
  rcases f.rank_cases rank with hsmall | ⟨e, m, hm, rfl⟩
  · rw [f.spacing_of_lt hsmall] at hhigh
    omega
  · rw [f.units_add_mul hm] at hlow hhigh ⊢
    rw [f.spacing_add_mul hm] at hhigh
    have hshift : e ≤ s := by
      by_contra hlt
      obtain ⟨k, rfl⟩ : ∃ k, e = s + 1 + k := ⟨e - (s + 1), by omega⟩
      have hlarge : 2 * f.binade * 2 ^ s ≤ (f.binade + m) * 2 ^ (s + 1 + k) :=
        calc 2 * f.binade * 2 ^ s = f.binade * 2 ^ (s + 1) := by ring
          _ ≤ (f.binade + m) * 2 ^ (s + 1 + k) :=
            Nat.mul_le_mul (Nat.le_add_right _ _) (Nat.pow_le_pow_right (by decide) (Nat.le_add_right _ _))
      have hn' := Nat.mul_lt_mul_of_pos_right hn (Nat.two_pow_pos s)
      omega
    obtain ⟨k, rfl⟩ : ∃ k, s = e + k := ⟨s - e, by omega⟩
    have hpow : 0 < 2 ^ e := Nat.two_pow_pos e
    rw [Nat.pow_add, ← Nat.mul_assoc, Nat.mul_right_comm] at hlow hhigh ⊢
    rw [← Nat.succ_mul] at hhigh
    have hle : f.binade + m ≤ n * 2 ^ k := Nat.le_of_mul_le_mul_right hlow hpow
    have hlt : n * 2 ^ k < f.binade + m + 1 := Nat.lt_of_mul_lt_mul_right hhigh
    rw [show n * 2 ^ k = f.binade + m by omega]

theorem rankBelow_div_spec {den : Nat} (hden : 0 < den) (n : Nat) :
    f.units (f.rankBelow (n / den)) * den ≤ n ∧ n < f.units (f.rankBelow (n / den) + 1) * den := by
  obtain ⟨hlow, hhigh⟩ := f.rankBelow_spec (n / den)
  exact ⟨(Nat.le_div_iff_mul_le hden).1 hlow, (Nat.div_lt_iff_lt_mul hden).1 hhigh⟩

/-! ## The nearest rank -/

/-- Twice the units of the point halfway to the rank below. -/
def floor (rank : Nat) : Nat := f.units (rank - 1) + f.units rank

/-- Twice the units of the point halfway to the rank above. -/
def ceiling (rank : Nat) : Nat := f.units rank + f.units (rank + 1)

/-- Whether a ratio lies between the points halfway to a rank's neighbours, or on one of them if the
rank is even. -/
structure Surrounds (rank num den : Nat) : Prop where
  floor_le : f.floor rank * den ≤ 2 * (num * f.one)
  le_ceiling : 2 * (num * f.one) ≤ f.ceiling rank * den
  floor_ne : rank % 2 = 1 → f.floor rank * den ≠ 2 * (num * f.one)
  ceiling_ne : rank % 2 = 1 → 2 * (num * f.one) ≠ f.ceiling rank * den

variable {f}

theorem Surrounds.nearestRank_eq {rank num den : Nat} (h : f.Surrounds rank num den) (hden : 0 < den)
    (hrank : rank ≤ f.infinity) : f.nearestRank num den = rank := by
  obtain ⟨hfloor, hceiling, hfloorne, hceilingne⟩ := h
  obtain ⟨hlow, hhigh⟩ := f.rankBelow_div_spec hden (num * f.one)
  unfold nearestRank
  dsimp only
  generalize num * f.one = scaled at *
  generalize f.rankBelow (scaled / den) = below at *
  have hle : below ≤ rank := by
    by_contra hlt
    have hunits : f.units (rank + 1) * den ≤ f.units below * den :=
      Nat.mul_le_mul_right den (f.units_strictMono.monotone (by omega))
    have hnext : f.units rank * den < f.units (rank + 1) * den :=
      Nat.mul_lt_mul_of_pos_right (f.units_strictMono rank.lt_succ_self) hden
    rw [ceiling, Nat.add_mul] at hceiling
    omega
  have hge : rank ≤ below + 1 := by
    by_contra hlt
    have hunits : f.units (below + 1) * den ≤ f.units (rank - 1) * den :=
      Nat.mul_le_mul_right den (f.units_strictMono.monotone (by omega))
    have hnext : f.units (rank - 1) * den ≤ f.units rank * den :=
      Nat.mul_le_mul_right den (f.units_strictMono.monotone (by omega))
    rw [floor, Nat.add_mul] at hfloor
    omega
  rcases Nat.lt_or_ge below rank with hbelow | hbelow
  · obtain rfl : rank = below + 1 := by omega
    rw [floor, Nat.add_sub_cancel] at hfloor hfloorne
    rw [if_neg (by omega)]
    split
    · have := hfloorne
      rw [Nat.min_eq_left] <;> omega
    · exact Nat.min_eq_left hrank
  · obtain rfl : below = rank := by omega
    rw [ceiling] at hceiling hceilingne
    split
    · exact Nat.min_eq_left hrank
    · rw [if_pos (by omega), Nat.min_eq_left] <;> omega

/-- The rank nearest to a ratio, if it is that of a number, surrounds the ratio. -/
theorem surrounds_nearestRank {num den : Nat} (hden : 0 < den) (hfinite : f.nearestRank num den < f.infinity) :
    f.Surrounds (f.nearestRank num den) num den := by
  obtain ⟨hlow, hhigh⟩ := f.rankBelow_div_spec hden (num * f.one)
  unfold nearestRank at hfinite ⊢
  dsimp only at hfinite ⊢
  rw [Nat.min_eq_left (by omega)]
  clear hfinite
  generalize hs : num * f.one = scaled at *
  generalize f.rankBelow (scaled / den) = below at *
  have hnext : f.units below * den < f.units (below + 1) * den :=
    Nat.mul_lt_mul_of_pos_right (f.units_strictMono below.lt_succ_self) hden
  have hbefore : f.units (below - 1) * den ≤ f.units below * den :=
    Nat.mul_le_mul_right den (f.units_strictMono.monotone (by omega))
  have hafter : f.units (below + 1) * den < f.units (below + 1 + 1) * den :=
    Nat.mul_lt_mul_of_pos_right (f.units_strictMono (Nat.lt_succ_self _)) hden
  have hstrict : below ≠ 0 → f.units (below - 1) * den < f.units below * den := fun hne =>
    Nat.mul_lt_mul_of_pos_right (f.units_strictMono (by omega)) hden
  rw [Nat.add_mul]
  split
  · constructor <;> simp only [floor, ceiling, hs, Nat.add_mul] <;> omega
  · split
    · rcases Nat.mod_two_eq_zero_or_one below with heven | hodd
      · rw [heven]
        constructor <;> simp only [floor, ceiling, hs, Nat.add_mul, Nat.add_zero] <;> omega
      · rw [hodd]
        constructor <;> simp only [floor, ceiling, hs, Nat.add_mul, Nat.add_sub_cancel] <;> omega
    · constructor <;> simp only [floor, ceiling, hs, Nat.add_mul, Nat.add_sub_cancel] <;> omega

theorem nearestRank_le_of_lt {rank num den : Nat} (hden : 0 < den) (h : 2 * (num * f.one) < f.ceiling rank * den) :
    f.nearestRank num den ≤ rank := by
  obtain ⟨hlow, -⟩ := f.rankBelow_div_spec hden (num * f.one)
  unfold nearestRank
  dsimp only
  generalize num * f.one = scaled at *
  generalize f.rankBelow (scaled / den) = below at *
  have hle : below ≤ rank := by
    by_contra hlt
    have hunits : f.units (rank + 1) * den ≤ f.units below * den :=
      Nat.mul_le_mul_right den (f.units_strictMono.monotone (by omega))
    have hnext : f.units rank * den ≤ f.units (rank + 1) * den :=
      Nat.mul_le_mul_right den (f.units_strictMono rank.lt_succ_self).le
    rw [ceiling, Nat.add_mul] at h
    omega
  refine (Nat.min_le_left _ _).trans ?_
  rcases Nat.lt_or_ge below rank with hbelow | hbelow
  · split
    · exact hle
    · split <;> omega
  · obtain rfl : below = rank := Nat.le_antisymm hle hbelow
    exact (if_pos h).le

theorem le_nearestRank_of_lt {rank num den : Nat} (hden : 0 < den) (hrank : rank ≤ f.infinity)
    (h : f.floor rank * den < 2 * (num * f.one)) : rank ≤ f.nearestRank num den := by
  obtain ⟨-, hhigh⟩ := f.rankBelow_div_spec hden (num * f.one)
  unfold nearestRank
  dsimp only
  generalize num * f.one = scaled at *
  generalize f.rankBelow (scaled / den) = below at *
  refine le_min ?_ hrank
  rcases Nat.lt_or_ge below rank with hbelow | hbelow
  · have hle : rank ≤ below + 1 := by
      by_contra hlt
      have hunits : f.units (below + 1) * den ≤ f.units (rank - 1) * den :=
        Nat.mul_le_mul_right den (f.units_strictMono.monotone (by omega))
      have hnext : f.units (rank - 1) * den ≤ f.units rank * den :=
        Nat.mul_le_mul_right den (f.units_strictMono.monotone (by omega))
      rw [floor, Nat.add_mul] at h
      omega
    obtain rfl : rank = below + 1 := by omega
    rw [floor, Nat.add_sub_cancel] at h
    rw [if_neg (by omega), if_neg (by omega)]
  · split
    · exact hbelow
    · split <;> omega

/-- The ranks from the first binade on are as fine as the fraction of the format allows. -/
theorem spacing_mul_binade_le {rank : Nat} (h : f.binade ≤ rank) : f.spacing rank * f.binade ≤ f.units rank := by
  rcases f.rank_cases rank with hlt | ⟨e, m, hm, rfl⟩
  · omega
  · rw [f.spacing_add_mul hm, f.units_add_mul hm, Nat.mul_comm]
    exact Nat.mul_le_mul_right _ (Nat.le_add_right _ m)

theorem spacing_le_two_mul (rank : Nat) : f.spacing rank ≤ 2 * f.spacing (rank - 1) := by
  unfold spacing
  rw [← Nat.pow_succ']
  refine Nat.pow_le_pow_right (by decide) ?_
  have hquot : rank / f.binade ≤ (rank - 1) / f.binade + 1 := by
    rw [← Nat.add_div_right _ f.binade_pos]
    exact Nat.div_le_div_right (by have := f.binade_pos; omega)
  omega

theorem units_succ_le (rank : Nat) : f.units (rank + 1) ≤ f.spacing rank * (2 * f.binade) := by
  rw [units_succ]
  rcases f.rank_cases rank with hlt | ⟨e, m, hm, rfl⟩
  · rw [f.spacing_of_lt hlt, units_eq_self hlt]
    omega
  · rw [f.spacing_add_mul hm, f.units_add_mul hm, Nat.mul_comm _ (2 ^ e), ← Nat.mul_succ]
    exact Nat.mul_le_mul_left _ (by omega)

theorem ceiling_eq (rank : Nat) : f.ceiling rank = 2 * f.units rank + f.spacing rank := by
  rw [ceiling, f.units_succ]
  ring

theorem spacing_mono {a b : Nat} (h : a ≤ b) : f.spacing a ≤ f.spacing b :=
  Nat.pow_le_pow_right (by decide) (Nat.sub_le_sub_right (Nat.div_le_div_right h) 1)

/-- The point halfway to the next rank is an odd multiple of half the spacing. -/
theorem ceiling_cases (f : BinaryFormat) (rank : Nat) :
    ∃ m, m % 2 = 1 ∧ m < 4 * f.binade ∧ f.ceiling rank = m * f.spacing rank := by
  rw [ceiling_eq]
  rcases f.rank_cases rank with hlt | ⟨e, m, hm, rfl⟩
  · rw [f.spacing_of_lt hlt, units_eq_self hlt]
    exact ⟨2 * rank + 1, by omega, by omega, (Nat.mul_one _).symm⟩
  · rw [f.spacing_add_mul hm, f.units_add_mul hm]
    exact ⟨2 * (f.binade + m) + 1, by omega, by omega, by ring⟩

theorem ceiling_sub_one {rank : Nat} (hpos : 0 < rank) : f.ceiling (rank - 1) = f.floor rank := by
  rw [ceiling, floor, Nat.sub_add_cancel hpos]

/-- Halfway points are at least as far from each other as the ranks of the lower one. -/
theorem ceiling_add_le (f : BinaryFormat) (rank n : Nat) :
    f.ceiling rank + 2 * n * f.spacing rank ≤ f.ceiling (rank + n) := by
  induction n with
  | zero => rw [Nat.mul_zero, Nat.zero_mul, Nat.add_zero, Nat.add_zero]
  | succ n ih =>
    have h₁ : f.spacing rank ≤ f.spacing (rank + n) := spacing_mono (Nat.le_add_right rank n)
    have h₂ : f.spacing rank ≤ f.spacing (rank + n + 1) := spacing_mono (by omega)
    have hnext :
        f.ceiling (rank + n + 1) = f.ceiling (rank + n) + f.spacing (rank + n) + f.spacing (rank + n + 1) := by
      simp only [ceiling, units_succ]
      ring
    rw [← Nat.add_assoc, hnext]
    linarith

theorem ceiling_mul_le (f : BinaryFormat) (rank n : Nat) :
    (2 * f.binade + n) * f.ceiling rank ≤ 2 * f.binade * f.ceiling (rank + n) := by
  obtain ⟨m, -, hm, hceiling⟩ := f.ceiling_cases rank
  have hupper : n * f.ceiling rank ≤ n * (4 * f.binade * f.spacing rank) := by
    rw [hceiling]
    exact Nat.mul_le_mul_left n (Nat.mul_le_mul_right _ hm.le)
  have hlower := Nat.mul_le_mul_left (2 * f.binade) (f.ceiling_add_le rank n)
  linarith

/-- A ratio that is the number of a rank is rounded to that rank. -/
theorem nearestRank_of_exact {rank num den : Nat} (hden : 0 < den) (hrank : rank ≤ f.infinity)
    (h : f.units rank * den = num * f.one) : f.nearestRank num den = rank := by
  have hbelow : f.units (rank - 1) * den ≤ f.units rank * den :=
    Nat.mul_le_mul_right den (f.units_strictMono.monotone (Nat.sub_le rank 1))
  have habove : f.units rank * den < f.units (rank + 1) * den :=
    Nat.mul_lt_mul_of_pos_right (f.units_strictMono rank.lt_succ_self) hden
  have hodd : rank % 2 = 1 → f.units (rank - 1) * den < f.units rank * den := fun hodd =>
    Nat.mul_lt_mul_of_pos_right (f.units_strictMono (by omega)) hden
  refine Surrounds.nearestRank_eq ⟨?_, ?_, fun ho => ?_, fun _ => ?_⟩ hden hrank
  all_goals
    simp only [floor, ceiling, Nat.add_mul]
  · omega
  · omega
  · have := hodd ho
    omega
  · omega

theorem nearestRank_mul_right {num den c : Nat} (hc : 0 < c) :
    f.nearestRank (num * c) (den * c) = f.nearestRank num den := by
  have hscaled : num * c * f.one = num * f.one * c := Nat.mul_right_comm _ _ _
  have hmid : ∀ mid, mid * (den * c) = mid * den * c := fun mid => (Nat.mul_assoc _ _ _).symm
  have hless : ∀ x y, 2 * (x * c) < y * c ↔ 2 * x < y := fun x y => by
    rw [← Nat.mul_assoc]
    exact Nat.mul_lt_mul_right hc
  have hsame : ∀ x y, 2 * (x * c) = y * c ↔ 2 * x = y := fun x y => by
    rw [← Nat.mul_assoc]
    exact Nat.mul_left_inj hc.ne'
  unfold nearestRank
  simp only [hscaled, hmid, Nat.mul_div_mul_right _ _ hc, hless, hsame]

/-- Rounding is a matter of the ratio alone. -/
theorem nearestRank_congr {num den num' den' : Nat} (hden : 0 < den) (hden' : 0 < den')
    (h : num * den' = num' * den) :
    f.nearestRank num den = f.nearestRank num' den' := by
  rw [← nearestRank_mul_right hden', h, Nat.mul_comm den den', nearestRank_mul_right hden]

/-- Where the numbers of a format lie among the powers of ten. The least is more than `2 * 10 ^ -least` and the
greatest between `10 ^ greatest` and ten times that. From `29 / 10 ^ (greatest + 1)` on they have all their bits. -/
structure Spans (f : BinaryFormat) (least greatest : Nat) : Prop where
  isFine : 10 ^ (f.scale / 3 - least) * (2 * f.one) < 10 ^ (f.scale / 3)
  isFinite : 2 * (10 ^ greatest * f.one) < f.ceiling (f.infinity - 1)
  isGreatest : f.units f.infinity < 10 ^ (greatest + 1) * f.one
  isNormal : 10 * f.binade * 10 ^ greatest ≤ 29 * f.one

theorem spans : single.Spans 46 38 ∧ double.Spans 324 308 := by
  constructor <;> constructor <;> decide +kernel

end BinaryFormat

end SettingsRelay
