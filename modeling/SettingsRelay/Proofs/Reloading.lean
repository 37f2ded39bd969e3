import SettingsRelay.Proofs.Doubles
import SettingsRelay.Proofs.Singles
import SettingsRelay.Settings.Validation

/-!
# Settings come back

Valid settings can be loaded from their own document. Every setting comes back as it was, with one
exception: the size of a device-independent pixel may become one of the next few numbers.
-/

namespace SettingsRelay

namespace Binary

variable {f : BinaryFormat}

theorem equals_self {x : Binary f} (hfinite : x.isFinite = true) : x.equals x = true := by
  match x with
  | .number negative rank => simp [equals]

theorem equals_ofRank {negative : Bool} {a b : Nat} (ha : a ≤ f.infinity) (hb : b ≤ f.infinity) :
    (ofRank negative a : Binary f).equals (ofRank negative b) = true ↔ b = a := by
  simp [equals, ofRank, Nat.min_eq_left ha, Nat.min_eq_left hb, eq_comm]

end Binary

namespace Settings

open BinaryFormat

theorem exists_rank_of_acceptsDipScale {x : Double} (h : acceptsDipScale x = true) :
    ∃ rank, x = .ofRank false rank ∧ 0 < rank ∧ rank < double.infinity := by
  match x with
  | .number negative rank =>
    simp only [acceptsDipScale, Binary.isFinite, Binary.isNegative, Binary.isZero, Bool.and_eq_true,
      Bool.not_eq_true', decide_eq_true_eq, decide_eq_false_iff_not, Bool.and_eq_false_iff] at h
    obtain ⟨⟨hfinite, hnegative⟩, hzero⟩ := h
    refine ⟨rank, ?_, Nat.pos_of_ne_zero hzero, hfinite⟩
    rw [Binary.ofRank_val]
    rcases hnegative with rfl | hzero'
    · rfl
    · exact absurd hzero hzero'

theorem acceptsDipScale_ofRank {rank : Nat} (hpos : 0 < rank) (hrank : rank < double.infinity) :
    acceptsDipScale (.ofRank false rank) = true := by
  rw [acceptsDipScale, Binary.isFinite_ofRank false hrank, Binary.isZero_ofRank false hrank hpos.ne']
  rfl

theorem equals_with_dipScale {s : Settings} (hpercent : s.initialPageScalePercent.isFinite = true) (scale : Double) :
    s.equals { s with dipScale := scale } = s.dipScale.equals scale := by
  simp [equals, Schema.equals, schema, Kind.equals, Binary.equals_self hpercent]

/-- Whether both the digits and the power of ten that a reader has in hand for a pixel size are doubles. -/
def ReadsExactly (rank : Nat) : Prop :=
  let d := DecimalLayout.reading (-5) 15 (.shortest double .even rank)
  d.significand < 2 ^ 53 ∧ d.exponent.natAbs ≤ 22

instance (rank : Nat) : Decidable (ReadsExactly rank) := by
  unfold ReadsExactly
  infer_instance

/-- Valid settings are loaded from their document as they were, but for the pixel size: it may become one of the next
four numbers, up or down, unless its digits and its power of ten are exact. -/
theorem load_saved {s : Settings} (hvalid : s.validate = .ok ()) :
    ∃ rank rank', s.dipScale = .ofRank false rank ∧ 0 < rank ∧ rank < double.infinity ∧
      load s.toDocument = .ok { s with dipScale := .ofRank false rank' } ∧
      (s.equals { s with dipScale := .ofRank false rank' } = true ↔ rank' = rank) ∧
      0 < rank' ∧ rank' < double.infinity ∧ rank' ≤ rank + 4 ∧ rank ≤ rank' + 4 ∧
      (ReadsExactly rank → rank' = rank) := by
  obtain ⟨hsize, hfixed, htext, hpercent, hscale⟩ := validate_eq_ok_iff.1 hvalid
  obtain ⟨rank, hrank, hpos, hfinite⟩ := exists_rank_of_acceptsDipScale hscale
  obtain ⟨rank', hpos', hfinite', hrestored, hbelow, habove⟩ := Binary.restored?_double hpos hfinite false
  have hpercent' : s.initialPageScalePercent.isFinite = true := by
    rw [acceptsPageScale, Bool.and_eq_true] at hpercent
    exact hpercent.1
  refine ⟨rank, rank', hrank, hpos, hfinite, ?_, ?_, hpos', hfinite', hbelow, habove, fun hexact => ?_⟩
  · have hrestores := restores (s := s) (Binary.restored?_single hpercent') (by rw [hrank]; exact hrestored)
    refine load_toDocument hrestores (validate_eq_ok_iff.2 ⟨hsize, hfixed, htext, hpercent, ?_⟩)
    exact acceptsDipScale_ofRank hpos' hfinite'
  · rw [equals_with_dipScale hpercent', hrank, Binary.equals_ofRank hfinite.le hfinite'.le]
  · rw [Binary.restored?_of_short hpos hfinite hexact.1 hexact.2, Option.some.injEq] at hrestored
    exact (Binary.ofRank_inj hfinite.le hfinite'.le hrestored).symm

/-- A pixel size of `3.3095726992692454` comes back as `3.309572699269246`. -/
theorem pixel_size_changes :
    let s : Settings := { dipScale := .ofRank false 0x400a7a014058c44e }
    let loaded : Settings := { dipScale := .ofRank false 0x400a7a014058c44f }
    s.validate = .ok () ∧ load s.toDocument = .ok loaded ∧ s.equals loaded = false := by
  intro s loaded
  have hvalid : s.validate = .ok () := validate_eq_ok_iff.2 (by decide +kernel)
  obtain ⟨rank, rank', hrank, -, hfinite, hload, hequals, -, hfinite', -⟩ := load_saved hvalid
  have hpercent : Binary.restored? (-6) 12 s.initialPageScalePercent = some s.initialPageScalePercent := by
    decide +kernel
  have hscale : Binary.restored? (-5) 15 s.dipScale = some loaded.dipScale := by decide +kernel
  have hconcrete : load s.toDocument = .ok loaded :=
    load_toDocument (restores hpercent hscale) (validate_eq_ok_iff.2 (by decide +kernel))
  have hsame : loaded = { s with dipScale := .ofRank false rank' } := Except.ok.inj (hconcrete.symm.trans hload)
  refine ⟨hvalid, hconcrete, ?_⟩
  rw [hsame]
  refine Bool.eq_false_iff.2 fun hequal => ?_
  have hback : rank' = rank := hequals.1 hequal
  have hloaded : loaded.dipScale = s.dipScale := by rw [hrank, ← hback, hsame]
  exact absurd hloaded (by decide +kernel)

end Settings

end SettingsRelay
