import SettingsRelay.Proofs.Inert
import SettingsRelay.Proofs.Population

/-!
# Preferences filled in again and again

An engine keeps its record of preferences from one population to the next. Each population writes every field,
and all but one from nothing but the particulars it finds. The scale of the font is left as it is unless text is
autosized, so that it is the one thing that a record remembers: it is the text size of the latest population
that autosized text, as a fraction, or what it was at the beginning if none did. To fill a record in once more
from the same particulars changes nothing.
-/

namespace SettingsRelay

variable {σ : Type}

/-! ## One population after another -/

namespace Particulars

def fontScale (r : Particulars) : Single := .ofInt r.settings.textSizePercent.toInt / hundred

theorem fontScaleFactor_fill (r : Particulars) (p : Preferences) :
    (r.fill p).fontScaleFactor = if r.textAutosizingEnabled then r.fontScale else p.fontScaleFactor := by
  have hfill : (r.fill p).fontScaleFactor = r.host.textZoom.fontScaleFactor.getD p.fontScaleFactor := rfl
  have hhost : r.host.textAutosizingEnabled = r.textAutosizingEnabled := rfl
  rw [hfill, Host.textZoom, TextZoom.ofPercent, hhost]
  cases r.textAutosizingEnabled with
  | true => rw [if_pos rfl, if_pos rfl, Option.getD_some, fontScale, host, Host.settings]
  | false => rw [if_neg Bool.false_ne_true, if_neg Bool.false_ne_true, Option.getD_none]

/-- Two records that are filled in from the same particulars differ in the scale of the font at most. -/
theorem fill_eq (r : Particulars) (p q : Preferences) :
    r.fill p = { r.fill q with fontScaleFactor := (r.fill p).fontScaleFactor } := rfl

theorem fill_fill (r : Particulars) (p : Preferences) : r.fill (r.fill p) = r.fill p := by
  have hscale : (r.fill (r.fill p)).fontScaleFactor = (r.fill p).fontScaleFactor := by
    rw [fontScaleFactor_fill, fontScaleFactor_fill]
    split <;> rfl
  rw [r.fill_eq (r.fill p) p, hscale]

end Particulars

namespace Bridge

variable {w : World σ} {b : BridgeRef}

/-- Whether a bridge fills in preferences: host and session are alive, and the render view has the
extension. -/
def serves (w : World σ) (b : BridgeRef) : Bool :=
  w.isAlive (w.bridges b).host.object && w.isAlive (w.bridges b).session.object &&
    (w.sessions (w.receiver (w.bridges b).session)).hasExtension

theorem fst_outcome_populate_of_serves (h : serves w b = true) (react : Reaction σ) (p : Preferences) :
    ((populate b p).outcome react w).1 = (w.particulars b).fill p := by
  rw [serves, Bool.and_eq_true, Bool.and_eq_true] at h
  rw [outcome_populate_served h.1.1 h.1.2 h.2]

theorem fst_outcome_populate_of_not_serves (h : ¬serves w b = true) (react : Reaction σ) (p : Preferences) :
    ((populate b p).outcome react w).1 = p := by
  by_cases hboth : w.isAlive (w.bridges b).host.object = true ∧ w.isAlive (w.bridges b).session.object = true
  · have hextension : extension? (w.acquire .call (w.bridges b).host.object) b = none := by
      have hnone : ¬(w.sessions (w.receiver (w.bridges b).session)).hasExtension = true := by
        intro hsome
        rw [serves, hboth.1, hboth.2, hsome] at h
        exact h rfl
      refine if_neg fun hsome => hnone ?_
      rw [Bool.and_eq_true] at hsome
      exact hsome.2
    have hinert : (populate b p).Inert w p := by
      intro react
      rw [populate, Op.outcome_get_bind]
      dsimp only
      rw [Op.outcome_get_bind, if_pos hboth.1]
      refine Op.Inert.keeping hboth.1 (fun react => ?_) react
      rw [Op.outcome_get_bind, hextension]
      rfl
    rw [hinert react]
  · have hdead : w.isAlive (w.bridges b).session.object = false ∨
        w.isAlive (w.bridges b).host.object = false := by
      rw [not_and_or, Bool.not_eq_true, Bool.not_eq_true] at hboth
      exact hboth.symm
    rw [inert_populate hdead p react]

end Bridge

/-! ## Histories -/

/-- What comes next for a record of preferences: a bridge is to fill it in, and its call is reacted to in
some way, or the world changes in whatever way. -/
inductive Turn (σ : Type) where
  | fill (b : BridgeRef) (react : Reaction σ)
  | pass (change : World σ → World σ)

/-- A record of preferences in the world, with the bridges that have filled it in, each in the world that
it found, the latest first. -/
structure Chronicle (σ : Type) where
  record : Preferences
  world : World σ
  fills : List (World σ × BridgeRef) := []

namespace Chronicle

variable {c : Chronicle σ} {p : Preferences}

def take (c : Chronicle σ) : Turn σ → Chronicle σ
  | .fill b react =>
    { record := ((Bridge.populate b c.record).outcome react c.world).1
      world := ((Bridge.populate b c.record).outcome react c.world).2
      fills := if Bridge.serves c.world b then (c.world, b) :: c.fills else c.fills }
  | .pass change => { c with world := change c.world }

theorem fills_take {b : BridgeRef} (hserves : Bridge.serves c.world b = true) (react : Reaction σ) :
    (c.take (.fill b react)).fills = (c.world, b) :: c.fills := if_pos hserves

def run (c : Chronicle σ) (turns : List (Turn σ)) : Chronicle σ := turns.foldl take c

/-- The latest particulars with an autosizer that the record was filled in from. -/
def autosized (c : Chronicle σ) : Option Particulars :=
  (c.fills.map fun fill => fill.1.particulars fill.2).find? (·.textAutosizingEnabled)

/-- The record is what the latest particulars make of any record, but for the scale of the font. That is
from the latest particulars with an autosizer, and before there are any from the record `p`. -/
structure Remembers (p : Preferences) (c : Chronicle σ) : Prop where
  latest : ∀ v b earlier, c.fills = (v, b) :: earlier →
    Bridge.serves v b = true ∧ (v.particulars b).fill c.record = c.record ∧
      ∀ q, c.record = { (v.particulars b).fill q with fontScaleFactor := c.record.fontScaleFactor }
  scale : c.record.fontScaleFactor = (c.autosized.map (·.fontScale)).getD p.fontScaleFactor
  untouched : c.fills = [] → c.record = p

theorem Remembers.fill (h : c.Remembers p) (w : World σ) {v : World σ} {b : BridgeRef}
    (hserves : Bridge.serves v b = true) :
    Remembers p { record := (v.particulars b).fill c.record, world := w, fills := (v, b) :: c.fills } where
  latest _ _ _ hfills := by
    obtain ⟨rfl, rfl⟩ := Prod.mk.inj (List.cons.inj hfills).1
    exact ⟨hserves, Particulars.fill_fill _ _, fun q => Particulars.fill_eq _ c.record q⟩
  scale := by
    rw [Particulars.fontScaleFactor_fill, autosized, List.map_cons, List.find?_cons]
    cases (v.particulars b).textAutosizingEnabled with
    | true => rw [if_pos rfl, Option.map_some, Option.getD_some]
    | false => rw [if_neg Bool.false_ne_true, h.scale, autosized]
  untouched hfills := nomatch hfills

theorem Remembers.take (h : c.Remembers p) (turn : Turn σ) : (c.take turn).Remembers p := by
  cases turn with
  | pass change => exact ⟨h.latest, h.scale, h.untouched⟩
  | fill b react =>
    dsimp only [Chronicle.take]
    split
    · next hserves =>
      rw [Bridge.fst_outcome_populate_of_serves hserves]
      exact h.fill _ hserves
    · next hnot =>
      rw [Bridge.fst_outcome_populate_of_not_serves hnot]
      exact ⟨h.latest, h.scale, h.untouched⟩

theorem Remembers.run (h : c.Remembers p) (turns : List (Turn σ)) : (c.run turns).Remembers p := by
  induction turns generalizing c with
  | nil => exact h
  | cons turn rest ih => exact ih (h.take turn)

theorem remembers_start (p : Preferences) (w : World σ) : Remembers p { record := p, world := w } where
  latest _ _ _ hfills := nomatch hfills
  scale := rfl
  untouched _ := rfl

/-- A record that is filled in over and over is what the latest particulars make of any other record, but for the
scale of the font, which is left from the latest population that autosized text. -/
theorem record_remembers_font_scale (p : Preferences) (w : World σ) (turns : List (Turn σ)) :
    let c := Chronicle.run { record := p, world := w } turns
    (∀ v b earlier, c.fills = (v, b) :: earlier →
      (∀ q react, c.record =
        { ((Bridge.populate b q).outcome react v).1 with fontScaleFactor := c.record.fontScaleFactor }) ∧
      ∀ b' react, c.world.particulars b' = v.particulars b →
        ((Bridge.populate b' c.record).outcome react c.world).1 = c.record) ∧
    c.record.fontScaleFactor = (c.autosized.map (·.fontScale)).getD p.fontScaleFactor ∧
    (c.fills = [] → c.record = p) := by
  have hremembers := (remembers_start p w).run turns
  refine ⟨fun v b earlier hfills => ?_, hremembers.scale, hremembers.untouched⟩
  obtain ⟨hserves, hsettled, hlatest⟩ := hremembers.latest v b earlier hfills
  refine ⟨fun q react => ?_, fun b' react hsame => ?_⟩
  · rw [Bridge.fst_outcome_populate_of_serves hserves]
    exact hlatest q
  · by_cases hserves' : Bridge.serves (Chronicle.run { record := p, world := w } turns).world b' = true
    · rw [Bridge.fst_outcome_populate_of_serves hserves', hsame, hsettled]
    · exact Bridge.fst_outcome_populate_of_not_serves hserves' react _

/-- Text is autosized at twice its size, and then no longer, when the application has changed its mind about
this and about scripts. The scale stays, the rest follows, and a third time changes nothing. -/
theorem font_scale_outlives_autosizer : ∃ (w : World Diary) (turns : List (Turn Diary)) (react : Reaction Diary),
    w.Reached Diary.note [] ∧
    (let c := Chronicle.run { record := {}, world := w } turns
     c.fills.length = 2 ∧ c.record.fontScaleFactor = .ofNat 2 ∧ c.record.textAutosizingEnabled = false ∧
      c.record.javascriptEnabled = false ∧
      ((Bridge.populate ⟨3⟩ c.record).outcome react c.world).1 = c.record) := by
  let deeds : List Deed :=
    [.makeContext {} none, .makeSession { id := ⟨7⟩ },
      .makeCustomHost { textSizePercent := 200 } { textAutosizingEnabled := some true }, .makeBridge ⟨0⟩ ⟨1⟩ ⟨2⟩]
  let change : List Deed :=
    [.customize ⟨2⟩ { textSizePercent := 150, javascriptEnabled := false } { textAutosizingEnabled := some false }]
  let w : World Diary := World.after Diary.note deeds { embedder := [] }
  let react : Reaction Diary := fun c u => u.noted Diary.note (some c)
  let turns : List (Turn Diary) := [.fill ⟨3⟩ react, .pass (World.after Diary.note change), .fill ⟨3⟩ react]
  have hw : w.Reached Diary.note [] := World.evolves_after Diary.note deeds (.still _)
  let first : Chronicle Diary := Chronicle.take { record := {}, world := w } (.fill ⟨3⟩ react)
  let changed : Chronicle Diary := first.take (.pass (World.after Diary.note change))
  have hserves : Bridge.serves w ⟨3⟩ = true := by decide +kernel
  have hchanged : Bridge.serves changed.world ⟨3⟩ = true := by decide +kernel
  have hfills : (changed.take (.fill ⟨3⟩ react)).fills = [(changed.world, ⟨3⟩), (w, ⟨3⟩)] := by
    have hfirst : first.fills = [(w, ⟨3⟩)] := fills_take hserves react
    exact (fills_take hchanged react).trans (congrArg _ hfirst)
  have hscaled : (changed.take (.fill ⟨3⟩ react)).autosized.map (·.fontScale) = some (.ofNat 2) := by
    decide +kernel
  have hrun : Chronicle.run { record := {}, world := w } turns = changed.take (.fill ⟨3⟩ react) := rfl
  obtain ⟨hlatest, hscale, _⟩ := record_remembers_font_scale {} w turns
  rw [hrun, hscaled, Option.getD_some] at hscale
  obtain ⟨hrecord, hagain⟩ := hlatest changed.world ⟨3⟩ _ hfills
  refine ⟨w, turns, react, hw, congrArg List.length hfills, hscale, ?_, ?_, hagain ⟨3⟩ react (by rfl)⟩
  · rw [hrecord {} react]
    decide +kernel
  · rw [hrecord {} react]
    decide +kernel

end Chronicle

end SettingsRelay
