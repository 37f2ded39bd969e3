import SettingsRelay.Proofs.Acceptance
import SettingsRelay.Proofs.Offer
import SettingsRelay.Proofs.Reloading
import SettingsRelay.Proofs.Sequence

/-!
# The page scale of valid settings

What scale an engine is given for settings within their ranges. It is a number that is not negative, or minus
one, which stands for none, and an engine cannot mistake one for the other: not where a quotient underflows, and
not where the pixel size is rounded to zero or to infinity. Only a percentage of zero, of either sign, stands
for none.

The scale may be infinite, though. A pixel size counts after it was rounded to 32 bits, and the quotient by a
small one overflows: if the rounded pixel size is one or more or infinite no percentage overflows, and if it is
less some do.
-/

namespace SettingsRelay

open BinaryFormat

/-! ## The numbers -/

theorem single_overflow : single.overflow = 2 ^ 128 - 2 ^ 103 := by
  have hceiling : single.ceiling (single.infinity - 1) = (2 ^ 128 - 2 ^ 103) * (2 * single.one) := rfl
  have hone : (single.one : ℚ) ≠ 0 := Nat.cast_ne_zero.2 single.one_pos.ne'
  have hle : 2 ^ 103 ≤ 2 ^ 128 := by decide
  rw [overflow, hceiling]
  push_cast [hle]
  field_simp
  norm_num

/-- The rank of the divisor by which percentages become scales. -/
def hundredRank : Nat := 0x42c80000

theorem hundred_eq : hundred = .ofRank false hundredRank := rfl

def oneRank : Nat := 0x3f800000

theorem magnitude_oneRank : single.magnitude oneRank = 1 := by
  have hunits : single.units oneRank = single.one := rfl
  rw [magnitude, hunits, div_self (Nat.cast_ne_zero.2 single.one_pos.ne')]

theorem one_le_magnitude_hundredRank : 1 ≤ single.magnitude hundredRank := by
  rw [← magnitude_oneRank]
  exact single.magnitude_strictMono.monotone (by decide)

/-- The greatest percentage overflows if the divisor is less than one. -/
theorem overflow_mul_le_greatest {c : Nat} (hc : c < oneRank) :
    (2 ^ 128 - 2 ^ 103) * single.magnitude c ≤ single.magnitude (single.infinity - 1) := by
  have hmono : single.magnitude c ≤ single.magnitude (oneRank - 1) :=
    single.magnitude_strictMono.monotone (Nat.le_sub_one_of_lt hc)
  have hunits : (2 ^ 128 - 2 ^ 103) * single.units (oneRank - 1) ≤ single.units (single.infinity - 1) := by
    decide
  have hone : (0 : ℚ) < single.one := Nat.cast_pos.2 single.one_pos
  have hle : 2 ^ 103 ≤ 2 ^ 128 := by decide
  have hcast : ((2 ^ 128 - 2 ^ 103) * single.units (oneRank - 1) : ℚ) ≤ single.units (single.infinity - 1) := by
    have := (Nat.cast_le (α := ℚ)).2 hunits
    push_cast [hle] at this
    linarith
  calc (2 ^ 128 - 2 ^ 103) * single.magnitude c ≤ (2 ^ 128 - 2 ^ 103) * single.magnitude (oneRank - 1) := by gcongr
    _ ≤ single.magnitude (single.infinity - 1) := by
      rw [magnitude, magnitude, ← mul_div_assoc]
      gcongr

namespace Settings

theorem exists_rank_of_acceptsPageScale {percent : Single} (h : acceptsPageScale percent = true) :
    percent.isZero = true ∨ ∃ rank, percent = .ofRank false rank ∧ 0 < rank ∧ rank < single.infinity := by
  match percent with
  | .number negative rank =>
    simp only [acceptsPageScale, Binary.isFinite, Binary.isNegative, Bool.and_eq_true, Bool.not_eq_true',
      decide_eq_true_eq, Bool.and_eq_false_iff, decide_eq_false_iff_not, Decidable.not_not] at h
    obtain ⟨hfinite, hpositive⟩ := h
    rcases Nat.eq_zero_or_pos rank.val with hzero | hpos
    · exact .inl (decide_eq_true hzero)
    · refine .inr ⟨rank, ?_, hpos, hfinite⟩
      rw [Binary.ofRank_val, hpositive.resolve_right hpos.ne']

/-- An accepted pixel size is rounded to a number without a sign, which may be zero or infinite. -/
theorem exists_rank_convert {dip : Double} (h : acceptsDipScale dip = true) :
    ∃ rank, rank ≤ single.infinity ∧ (dip.convert : Single) = .ofRank false rank := by
  obtain ⟨rank, rfl, -, hfinite⟩ := exists_rank_of_acceptsDipScale h
  exact ⟨_, single.nearestRank_le _ _, Binary.convert_ofRank false hfinite⟩

end Settings

/-! ## The scale -/

theorem initialPageScale_of_isZero {percent : Single} (hzero : percent.isZero = true) (dip : Double) :
    initialPageScale percent dip = noInitialPageScale := by
  rw [initialPageScale, if_pos hzero]

/-- A positive percentage gives a number without a sign. It is infinite from where on the quotient by the rounded
pixel size is rounded to infinity. -/
theorem exists_rank_initialPageScale {a : Nat} (hpos : 0 < a) (ha : a < single.infinity) {dip : Double}
    (hdip : Settings.acceptsDipScale dip = true) :
    ∃ rank, rank ≤ single.infinity ∧ initialPageScale (.ofRank false a) dip = .ofRank false rank ∧
      (rank < single.infinity ↔ (dip.convert : Single).isFinite = false ∨
        single.magnitude a < (2 ^ 128 - 2 ^ 103) * (dip.convert : Single).toRat) := by
  obtain ⟨c, hc, hconvert⟩ := Settings.exists_rank_convert hdip
  obtain ⟨q, hq, hquotient, hfinite⟩ :=
    Binary.exists_rank_div single_hasOddLast ha.le hc (.inl hpos) (.inl ha)
  obtain ⟨rank, hrank, hscale, hlast⟩ := Binary.exists_rank_div (f := single) (a := q) (b := hundredRank)
    single_hasOddLast hq (by decide) (.inr (by decide)) (.inr (by decide))
  have hnonzero : (Binary.ofRank false a : Single).isZero = false := Binary.isZero_ofRank false ha hpos.ne'
  refine ⟨rank, hrank, ?_, ?_⟩
  · rw [initialPageScale, hnonzero, if_neg Bool.false_ne_true, hconvert, hquotient, hundred_eq, hscale]
  · -- the second quotient is no further up than the first, so that only the first can overflow
    have hbelow : q < single.infinity → single.magnitude q < single.overflow * single.magnitude hundredRank := fun hq =>
      (magnitude_lt_overflow hq).trans_le (le_mul_of_one_le_right single.overflow_pos.le one_le_magnitude_hundredRank)
    have hsame : rank < single.infinity ↔ q < single.infinity :=
      hlast.trans ⟨And.left, fun hq => ⟨hq, .inr (hbelow hq)⟩⟩
    rw [hsame, hfinite, and_iff_right ha, hconvert, ← single_overflow]
    rcases hc.lt_or_eq with hlt | rfl
    · have hpixel := (Binary.isFinite_ofRank_iff false hc).2 hlt
      rw [hpixel, Binary.toRat_ofRank hlt, or_iff_right hlt.ne]
      simp
    · have hpixel : (Binary.ofRank false single.infinity : Single).isFinite = false := Binary.isFinite_infinity false
      simp [hpixel]

/-! ### Of settings within their ranges -/

theorem toRat_noInitialPageScale : noInitialPageScale.toRat = -1 := by
  have hnumber : noInitialPageScale = .number true ⟨oneRank, by decide⟩ := rfl
  have hfinite : oneRank < single.infinity := by decide
  rw [hnumber, Binary.toRat, if_pos hfinite, if_pos rfl, magnitude_oneRank]

/-- The scale that a render view is to have. One below zero tells it to choose for itself. -/
def chosenScale? (scale : Single) : Option Single := if scale.isNegative then none else some scale

section Accepted

variable {percent : Single} {dip : Double} (hpercent : Settings.acceptsPageScale percent = true)
  (hdip : Settings.acceptsDipScale dip = true)

include hpercent hdip

theorem isFinite_initialPageScale :
    (initialPageScale percent dip).isFinite = true ↔ percent.isZero = true ∨ (dip.convert : Single).isFinite = false ∨
      percent.toRat < (2 ^ 128 - 2 ^ 103) * (dip.convert : Single).toRat := by
  rcases Settings.exists_rank_of_acceptsPageScale hpercent with hzero | ⟨a, rfl, hpos, ha⟩
  · rw [initialPageScale_of_isZero hzero]
    exact iff_of_true (by decide) (.inl hzero)
  · obtain ⟨rank, hrank, hscale, hfinite⟩ := exists_rank_initialPageScale hpos ha hdip
    rw [hscale, Binary.isFinite_ofRank_iff false hrank, hfinite, Binary.isZero_ofRank false ha hpos.ne',
      Binary.toRat_ofRank ha, or_iff_right Bool.false_ne_true]

theorem initialPageScale_eq_infinity (hinfinite : (initialPageScale percent dip).isFinite = false) :
    initialPageScale percent dip = .infinity false := by
  rcases Settings.exists_rank_of_acceptsPageScale hpercent with hzero | ⟨a, rfl, hpos, ha⟩
  · rw [initialPageScale_of_isZero hzero] at hinfinite
    exact absurd hinfinite (by decide)
  · obtain ⟨rank, hrank, hscale, -⟩ := exists_rank_initialPageScale hpos ha hdip
    rw [hscale, ← Bool.not_eq_true, Binary.isFinite_ofRank_iff false hrank, not_lt] at hinfinite
    rw [hscale, le_antisymm hrank hinfinite, Binary.infinity]

/-- A percentage of zero means none and any other a number without a sign. -/
theorem initialPageScale_cases :
    (percent.isZero = true ∧ initialPageScale percent dip = noInitialPageScale) ∨
      percent.isZero = false ∧ ∃ rank, initialPageScale percent dip = .ofRank false rank := by
  rcases Settings.exists_rank_of_acceptsPageScale hpercent with hzero | ⟨a, rfl, hpos, ha⟩
  · exact .inl ⟨hzero, initialPageScale_of_isZero hzero dip⟩
  · obtain ⟨rank, -, hscale, -⟩ := exists_rank_initialPageScale hpos ha hdip
    exact .inr ⟨Binary.isZero_ofRank false ha hpos.ne', rank, hscale⟩

theorem chosenScale?_eq_none_iff :
    chosenScale? (initialPageScale percent dip) = none ↔ percent.isZero = true := by
  rcases initialPageScale_cases hpercent hdip with ⟨hzero, hscale⟩ | ⟨hnonzero, rank, hscale⟩
  · exact iff_of_true (by rw [hscale]; decide) hzero
  · rw [hscale, hnonzero]
    exact iff_of_false (by simp [chosenScale?, Binary.ofRank, Binary.isNegative]) Bool.false_ne_true

end Accepted

/-- The pixel sizes for which every percentage gives a finite scale. -/
theorem forall_isFinite_initialPageScale {dip : Double} (hdip : Settings.acceptsDipScale dip = true) :
    (∀ percent, Settings.acceptsPageScale percent = true → (initialPageScale percent dip).isFinite = true) ↔
      (dip.convert : Single).isFinite = false ∨ 1 ≤ (dip.convert : Single).toRat := by
  obtain ⟨c, hc, hconvert⟩ := Settings.exists_rank_convert hdip
  constructor
  · intro hall
    have hlast : single.infinity - 1 < single.infinity := by decide
    have hgreatest := (isFinite_initialPageScale (by decide) hdip).1
      (hall (.ofRank false (single.infinity - 1)) (by decide))
    rw [Binary.isZero_ofRank false hlast (by decide), Binary.toRat_ofRank hlast, or_iff_right Bool.false_ne_true,
      hconvert] at hgreatest
    rw [hconvert]
    refine hgreatest.imp_right fun hlt => ?_
    rcases hc.lt_or_eq with hfinite | rfl
    · rw [Binary.toRat_ofRank hfinite] at hlt ⊢
      rw [← magnitude_oneRank]
      refine single.magnitude_strictMono.monotone (Nat.le_of_not_lt fun hless => ?_)
      exact hlt.not_ge (overflow_mul_le_greatest hless)
    · have hzero : (Binary.ofRank false single.infinity : Single).toRat = 0 := rfl
      rw [hzero, mul_zero] at hlt
      exact absurd hlt (magnitude_nonneg _).not_gt
  · intro hsafe percent hpercent
    rw [isFinite_initialPageScale hpercent hdip]
    rcases Settings.exists_rank_of_acceptsPageScale hpercent with hzero | ⟨a, rfl, hpos, ha⟩
    · exact .inl hzero
    · refine .inr (hsafe.imp_right fun hone => ?_)
      rw [Binary.toRat_ofRank ha, ← single_overflow]
      exact (magnitude_lt_overflow ha).trans_le (le_mul_of_one_le_right single.overflow_pos.le hone)

/-! ## What bridges hand on -/

def BridgeAction.carriesPageScale : BridgeAction → Bool
  | updateEverything | renderViewCreated | updatePageScale => true
  | updatePreferences | updateUserAgent | updateFormData | updateAcceptLanguages | resetScroll => false

namespace Bridge

variable {σ : Type} {react : Reaction σ} {w : World σ} {b : BridgeRef} {h : HostRef} {s : SessionRef} {scale : Single}

theorem mem_pageScaleCalls : .pageScale s scale ∈ pageScaleCalls b h w ↔ extension? w b = some s ∧
    scale = SettingsRelay.initialPageScale (w.hosts h).initialPageScalePercent (w.hosts h).dipScale := by
  rw [pageScaleCalls]
  cases extension? w b with
  | none => simp
  | some t => simp [eq_comm]

theorem pageScale_notMem_preferencesCalls : .pageScale s scale ∉ preferencesCalls b w := by
  unfold preferencesCalls
  dsimp only
  split
  · split <;> simp
  · simp

theorem pageScale_notMem_userAgentCalls : .pageScale s scale ∉ userAgentCalls b h react w := by
  unfold userAgentCalls
  dsimp only
  split
  · simp [Session.entryCalls]
  · simp

theorem pageScale_notMem_languageCalls : .pageScale s scale ∉ languageCalls b h w := by
  unfold languageCalls
  split <;> simp

theorem pageScale_notMem_scrollCalls : .pageScale s scale ∉ scrollCalls b w := by
  simp [scrollCalls]

theorem pageScale_notMem_calls {part : Part} (hpart : part ≠ .pageScale) :
    .pageScale s scale ∉ part.calls react b h w := by
  cases part with
  | pageScale => exact absurd rfl hpart
  | preferences => exact pageScale_notMem_preferencesCalls
  | userAgent => exact pageScale_notMem_userAgentCalls
  | formData => exact List.not_mem_nil

theorem pageScale_notMem_partCalls {parts : List Part} (hparts : .pageScale ∉ parts) :
    ∀ w : World σ, .pageScale s scale ∉ partCalls react b h parts w := by
  induction parts with
  | nil => exact fun _ => List.not_mem_nil
  | cons part rest ih =>
    rw [List.mem_cons, not_or] at hparts
    intro w hmem
    rcases List.mem_append.1 hmem with hnow | hlater
    · exact pageScale_notMem_calls (Ne.symm hparts.1) hnow
    · exact ih hparts.2 _ hlater

theorem pageScale_notMem_actionCalls {action : BridgeAction} (haction : action.carriesPageScale = false) :
    .pageScale s scale ∉ actionCalls react b w action := by
  unfold actionCalls
  dsimp only
  split
  · cases action with
    | updateEverything | renderViewCreated | updatePageScale => cases haction
    | updatePreferences => exact pageScale_notMem_preferencesCalls
    | updateUserAgent => exact pageScale_notMem_userAgentCalls
    | updateFormData => exact List.not_mem_nil
    | updateAcceptLanguages => exact pageScale_notMem_languageCalls
    | resetScroll => exact pageScale_notMem_scrollCalls
  · exact List.not_mem_nil

/-- The page scale comes first in an update of everything, and nothing after it is one. -/
theorem mem_actionCalls {action : BridgeAction} (haction : action.carriesPageScale = true) :
    .pageScale s scale ∈ actionCalls react b w action ↔ w.isAlive (w.bridges b).host.object = true ∧
      extension? w b = some s ∧ scale = SettingsRelay.initialPageScale
        (w.hosts (w.bridges b).host).initialPageScalePercent (w.hosts (w.bridges b).host).dipScale := by
  have hextension : extension? (w.acquire .call (w.bridges b).host.object) b = extension? w b :=
    extension?_acquire .call (by simp [Ref.object])
  have hscale : .pageScale s scale ∈
      pageScaleCalls b (w.bridges b).host (w.acquire .call (w.bridges b).host.object) ↔ _ := mem_pageScaleCalls
  rw [hextension] at hscale
  unfold actionCalls
  dsimp only
  split
  · next halive =>
    rw [and_iff_right halive]
    cases action with
    | updateEverything | renderViewCreated =>
      refine List.mem_append.trans ((or_iff_left ?_).trans hscale)
      exact pageScale_notMem_partCalls (by decide) _
    | updatePageScale => exact hscale
    | _ => cases haction
  · next hdead => exact iff_of_false List.not_mem_nil fun h => hdead h.1

/-- The page scales that a bridge hands on are those of its host at the start, whatever action it carries out. -/
theorem mem_calls_perform (action : BridgeAction) :
    .pageScale s scale ∈ (action.perform b).calls react w ↔
      action.carriesPageScale = true ∧ w.isAlive (w.bridges b).host.object = true ∧ extension? w b = some s ∧
        scale = SettingsRelay.initialPageScale (w.hosts (w.bridges b).host).initialPageScalePercent
          (w.hosts (w.bridges b).host).dipScale := by
  rw [(makes_action react b w action).calls]
  cases hcarries : action.carriesPageScale with
  | false => exact iff_of_false (pageScale_notMem_actionCalls hcarries) fun h => Bool.false_ne_true h.1
  | true => exact (mem_actionCalls hcarries).trans (and_iff_right rfl).symm

end Bridge

/-! ## The main statements -/

/-- When exactly the page scale of settings within their ranges is finite, and that it is infinite otherwise. A bridge
hands on this very scale, finite or not, whenever it carries the page scale. -/
theorem page_scale_is_finite_iff {s : Settings} (hvalid : s.validate = .ok ()) :
    let percent := s.initialPageScalePercent
    let pixel : Single := s.dipScale.convert
    let scale := initialPageScale percent s.dipScale
    (scale.isFinite = true ↔
      percent.isZero = true ∨ pixel.isFinite = false ∨ percent.toRat < (2 ^ 128 - 2 ^ 103) * pixel.toRat) ∧
    (scale.isFinite = false → scale = .infinity false) ∧
    ((∀ t : Settings, t.validate = .ok () → t.dipScale = s.dipScale →
        (initialPageScale t.initialPageScalePercent t.dipScale).isFinite = true) ↔
      pixel.isFinite = false ∨ 1 ≤ pixel.toRat) ∧
    ∀ {σ : Type} (react : Reaction σ) (w : World σ) (b : BridgeRef),
      (w.hosts (w.bridges b).host).initialPageScalePercent = percent →
      (w.hosts (w.bridges b).host).dipScale = s.dipScale →
      ∀ (action : BridgeAction) (r : SessionRef) (x : Single), .pageScale r x ∈ (action.perform b).calls react w ↔
        action.carriesPageScale = true ∧ w.isAlive (w.bridges b).host.object = true ∧
          Bridge.extension? w b = some r ∧ x = scale := by
  obtain ⟨hfont, hfixed, htext, hpercent, hdip⟩ := Settings.validate_eq_ok_iff.1 hvalid
  refine ⟨isFinite_initialPageScale hpercent hdip, initialPageScale_eq_infinity hpercent hdip, ?_, ?_⟩
  · rw [← forall_isFinite_initialPageScale hdip]
    constructor
    · intro hall percent hpercent
      exact hall { s with initialPageScalePercent := percent }
        (Settings.validate_eq_ok_iff.2 ⟨hfont, hfixed, htext, hpercent, hdip⟩) rfl
    · intro hall t ht hsame
      rw [hsame]
      exact hall _ (Settings.validate_eq_ok_iff.1 ht).2.2.2.1
  · intro σ react w b hhost hpixel action r x
    rw [Bridge.mem_calls_perform, hhost, hpixel]

/-- With a percentage of one and a pixel size of `1e-39`, both accepted, a bridge hands on an infinite scale. -/
theorem infinite_scale_is_handed_on :
    let s : Settings := { initialPageScalePercent := .ofNat 1, dipScale := .ofRank false 0x37d5c72fb1552d83 }
    let deeds : List Deed :=
      [.makeContext {} none, .makeSession { id := ⟨7⟩ }, .makeHost s, .makeBridge ⟨0⟩ ⟨1⟩ ⟨2⟩, .attach ⟨2⟩ ⟨3⟩]
    let w : World Diary := World.after Diary.note deeds { embedder := [] }
    s.validate = .ok () ∧ w.Reached Diary.note [] ∧
    .pageScale ⟨1⟩ (.infinity false) ∈ (Bridge.updateEverything ⟨3⟩).calls (fun _ u => u) w := by
  intro s deeds w
  have hvalid : s.validate = .ok () := by decide
  have hw : w.Reached Diary.note [] := World.evolves_after Diary.note deeds (.still _)
  obtain ⟨-, hinfinite, -, hcalls⟩ := page_scale_is_finite_iff hvalid
  have hscale := hinfinite (by decide +kernel)
  refine ⟨hvalid, hw, ?_⟩
  refine (hcalls _ w ⟨3⟩ (by decide +kernel) (by decide +kernel) .updateEverything ⟨1⟩ _).2 ⟨rfl, ?_, ?_, hscale.symm⟩
  · decide +kernel
  · decide +kernel

/-- For settings within their ranges the page scale is a number, and it is minus one exactly if the percentage is
zero, of either sign. Any other percentage gives a number without a sign. -/
theorem only_zero_stands_for_none {s : Settings} (hvalid : s.validate = .ok ()) :
    let percent := s.initialPageScalePercent
    let scale := initialPageScale percent s.dipScale
    scale ≠ .nan ∧
    (scale.isNegative = true ↔ percent.isZero = true) ∧
    (percent.isZero = true → ∀ dip : Double, initialPageScale percent dip = noInitialPageScale) ∧
    noInitialPageScale.toRat = -1 ∧
    (percent.isZero = false → ∃ rank, scale = .ofRank false rank) ∧
    ∀ {σ : Type} (react : Reaction σ) (w : World σ) (b : BridgeRef),
      (w.hosts (w.bridges b).host).initialPageScalePercent = percent →
      (w.hosts (w.bridges b).host).dipScale = s.dipScale →
      ∀ (action : BridgeAction) (r : SessionRef) (x : Single), .pageScale r x ∈ (action.perform b).calls react w →
        (chosenScale? x = none ↔ percent.isZero = true) := by
  obtain ⟨-, -, -, hpercent, hdip⟩ := Settings.validate_eq_ok_iff.1 hvalid
  have hchosen := chosenScale?_eq_none_iff hpercent hdip
  dsimp only
  refine ⟨?_, ?_, initialPageScale_of_isZero, toRat_noInitialPageScale, ?_, ?_⟩
  · rcases initialPageScale_cases hpercent hdip with ⟨-, hscale⟩ | ⟨-, rank, hscale⟩ <;> rw [hscale]
    · decide
    · simp [Binary.ofRank]
  · rw [← hchosen, chosenScale?]
    cases (initialPageScale s.initialPageScalePercent s.dipScale).isNegative <;> simp
  · intro hnonzero
    rcases initialPageScale_cases hpercent hdip with ⟨hzero, -⟩ | ⟨-, hscale⟩
    · rw [hnonzero] at hzero
      cases hzero
    · exact hscale
  · intro σ react w b hhost hpixel action r x hmem
    rw [Bridge.mem_calls_perform, hhost, hpixel] at hmem
    rw [hmem.2.2.2]
    exact hchosen

/-- With the greatest pixel size, which is rounded to infinity, minus zero still means none, and the least percentage
gives a scale of zero, which does not. -/
theorem least_percentage_is_not_none :
    let greatest : Double := .ofRank false 0x7fefffffffffffff
    let unset : Settings := { initialPageScalePercent := .zero true, dipScale := greatest }
    let least : Settings := { initialPageScalePercent := .ofRank false 1, dipScale := greatest }
    (unset.validate = .ok () ∧ initialPageScale unset.initialPageScalePercent greatest = noInitialPageScale) ∧
    least.validate = .ok () ∧ initialPageScale least.initialPageScalePercent greatest = .zero false ∧
    ¬(initialPageScale least.initialPageScalePercent greatest).isNegative = true := by
  intro greatest unset least
  have hunset : unset.validate = .ok () := by decide
  have hleast : least.validate = .ok () := by decide
  obtain ⟨-, -, hnone, -⟩ := only_zero_stands_for_none hunset
  obtain ⟨-, hnegative, -⟩ := only_zero_stands_for_none hleast
  refine ⟨⟨hunset, hnone (by decide) greatest⟩, hleast, by decide +kernel, fun h => ?_⟩
  exact absurd (hnegative.1 h) (by decide)

end SettingsRelay
