import SettingsRelay.Proofs.Edit
import SettingsRelay.Proofs.Farewell
import SettingsRelay.Proofs.Inert
import SettingsRelay.Proofs.Value

/-!
# What is accepted

Settings take the place of others, or are read from a document, if every number among them is within its range.
The ranges are stated here for the numbers themselves. They are checked in one order, and the first number that
is out of its range is reported. Settings that are refused are refused before anything is done. A host that has
taken settings, or is made from a document, has exactly these, if nobody who is called changes them.
-/

namespace SettingsRelay

variable {σ : Type}

open World (Carry)

/-! ## Ranges -/

inductive Ranged where
  | defaultFontSize
  | defaultFixedFontSize
  | textSizePercent
  | initialPageScalePercent
  | dipScale
deriving DecidableEq, Repr

namespace Ranged

/-- The settings that have a range, in the order in which they are checked. -/
def all : List Ranged :=
  [defaultFontSize, defaultFixedFontSize, textSizePercent, initialPageScalePercent, dipScale]

theorem mem_all (r : Ranged) : r ∈ all := by
  cases r <;> decide

def IsWithin (s : Settings) : Ranged → Prop
  | defaultFontSize => 1 ≤ s.defaultFontSize.toInt ∧ s.defaultFontSize.toInt ≤ 72
  | defaultFixedFontSize => 1 ≤ s.defaultFixedFontSize.toInt ∧ s.defaultFixedFontSize.toInt ≤ 72
  | textSizePercent => 1 ≤ s.textSizePercent.toInt
  | initialPageScalePercent =>
    s.initialPageScalePercent.isFinite = true ∧ 0 ≤ s.initialPageScalePercent.toRat
  | dipScale => s.dipScale.isFinite = true ∧ 0 < s.dipScale.toRat

def violation (s : Settings) : Ranged → Violation
  | defaultFontSize => .defaultFontSize s.defaultFontSize
  | defaultFixedFontSize => .defaultFixedFontSize s.defaultFixedFontSize
  | textSizePercent => .textSizePercent s.textSizePercent
  | initialPageScalePercent => .initialPageScalePercent s.initialPageScalePercent
  | dipScale => .dipScale s.dipScale

/-- A setting out of its range, where all that are checked before it are within theirs. -/
def IsFirst (s : Settings) (r : Ranged) : Prop :=
  ¬r.IsWithin s ∧ ∃ before after, all = before ++ r :: after ∧ ∀ q ∈ before, q.IsWithin s

def passes (s : Settings) : Ranged → Bool
  | defaultFontSize => Settings.acceptsFontSize s.defaultFontSize
  | defaultFixedFontSize => Settings.acceptsFontSize s.defaultFixedFontSize
  | textSizePercent => !decide (s.textSizePercent ≤ 0)
  | initialPageScalePercent => Settings.acceptsPageScale s.initialPageScalePercent
  | dipScale => Settings.acceptsDipScale s.dipScale

theorem acceptsFontSize_iff_toInt {size : Int32} :
    Settings.acceptsFontSize size = true ↔ 1 ≤ size.toInt ∧ size.toInt ≤ 72 := by
  rw [Settings.acceptsFontSize, Bool.and_eq_true, decide_eq_true_eq, decide_eq_true_eq, Int32.le_iff_toInt_le,
    Int32.le_iff_toInt_le]
  rfl

theorem passes_iff {s : Settings} {r : Ranged} : r.passes s = true ↔ r.IsWithin s := by
  cases r with
  | defaultFontSize | defaultFixedFontSize => exact acceptsFontSize_iff_toInt
  | textSizePercent =>
    have hzero : (0 : Int32).toInt = 0 := rfl
    rw [passes, IsWithin, Bool.not_eq_true', decide_eq_false_iff_not, Int32.le_iff_toInt_le, hzero]
    omega
  | initialPageScalePercent => exact Settings.acceptsPageScale_iff
  | dipScale => exact Settings.acceptsDipScale_iff

instance (s : Settings) (r : Ranged) : Decidable (r.IsWithin s) := decidable_of_iff _ passes_iff

end Ranged

namespace Settings

theorem validate_eq (s : Settings) :
    s.validate = match Ranged.all.find? fun r => !r.passes s with
      | some r => .error (r.violation s)
      | none => .ok () := by
  simp only [validate, Ranged.all, List.find?_cons, List.find?_nil, Ranged.passes, Bool.not_not]
  cases acceptsFontSize s.defaultFontSize <;> cases acceptsFontSize s.defaultFixedFontSize <;>
    cases acceptsPageScale s.initialPageScalePercent <;> cases acceptsDipScale s.dipScale <;>
    by_cases htext : s.textSizePercent ≤ 0 <;> simp [htext, Ranged.violation]

theorem validate_eq_ok_iff_within {s : Settings} : s.validate = .ok () ↔ ∀ r : Ranged, r.IsWithin s := by
  have hall : (∀ r : Ranged, r.IsWithin s) ↔ (Ranged.all.find? fun r => !r.passes s) = none := by
    simp only [List.find?_eq_none, Bool.not_eq_true', Bool.not_eq_false, Ranged.passes_iff]
    exact ⟨fun h r _ => h r, fun h r => h r r.mem_all⟩
  rw [hall, validate_eq]
  cases Ranged.all.find? fun r => !r.passes s <;> simp

theorem validate_eq_error_iff {s : Settings} {v : Violation} :
    s.validate = .error v ↔ ∃ r : Ranged, r.IsFirst s ∧ v = r.violation s := by
  have hfirst : ∀ r : Ranged, r.IsFirst s ↔ (Ranged.all.find? fun r => !r.passes s) = some r := fun r => by
    simp only [List.find?_eq_some_iff_append, Bool.not_not, Bool.not_eq_true', ← Bool.not_eq_true, Ranged.passes_iff]
    rfl
  simp only [hfirst, validate_eq]
  cases Ranged.all.find? fun r => !r.passes s <;> simp [eq_comm]

theorem validated_eq_ok_iff {s t : Settings} : s.validated = .ok t ↔ s = t ∧ ∀ r : Ranged, r.IsWithin s := by
  rw [← validate_eq_ok_iff_within, validated]
  cases s.validate <;> simp

theorem validated_eq_error_iff {s : Settings} {refusal : Refusal} :
    s.validated = .error refusal ↔ ∃ r : Ranged, r.IsFirst s ∧ refusal = .invalidSetting (r.violation s) := by
  have hreport : s.validated = .error refusal ↔ ∃ v, s.validate = .error v ∧ refusal = .invalidSetting v := by
    rw [validated]
    cases s.validate <;> simp [eq_comm]
  rw [hreport]
  simp only [validate_eq_error_iff]
  constructor
  · rintro ⟨v, ⟨r, hfirst, rfl⟩, hrefusal⟩
    exact ⟨r, hfirst, hrefusal⟩
  · rintro ⟨r, hfirst, hrefusal⟩
    exact ⟨_, ⟨r, hfirst, rfl⟩, hrefusal⟩

end Settings

/-! ## The settings of a host while others act -/

/-- Whether those who are called leave the settings of a host alone. -/
def Reaction.Leaves (react : Reaction σ) (h : HostRef) : Prop :=
  ∀ c u, ((react c u).hosts h).settings = (u.hosts h).settings

namespace Reaction.Leaves

variable {react : Reaction σ} {h : HostRef} {w : World σ}

theorem settings_answer (hreact : react.Leaves h) (call : Option Call) (u : World σ) :
    ((react.answer call u).hosts h).settings = (u.hosts h).settings := by
  cases call with
  | none => rfl
  | some c => exact hreact c u

theorem settings_of_moves {α : Type} {op : Op σ α} (hreact : react.Leaves h) (hop : op.Moves Carry) (w : World σ) :
    ((op.outcome react w).2.hosts h).settings = (w.hosts h).settings := by
  refine (hop w react).keeps (I := fun u => (u.hosts h).settings = (w.hosts h).settings) (fun a call b m ha => ?_) rfl
  rw [hreact.settings_answer, ← ha]
  cases m with
  | letGo o _ => rw [World.releaseQuietly_eq]
  | _ => rfl

/-- The end of a bridge changes what is attached to its host and no settings. -/
theorem settings_release (hreact : react.Leaves h) (holder : Holder) (b : BridgeRef) (w : World σ) :
    (((Op.release holder b.object).outcome react w).2.hosts h).settings = (w.hosts h).settings := by
  cases hdead : (w.withdraw holder b.object).isAlive b.object with
  | true =>
    rw [Op.outcome_release_bridge react hdead]
    rfl
  | false =>
    by_cases hheld : ⟨holder, b.object⟩ ∈ w.shares
    · rw [Op.outcome_release_last react hheld hdead, World.settled_eq]
      exact (hreact.settings_answer _ _).trans (World.settings_parted w holder b h)
    · rw [Op.release, if_pos (show b.object.kind = .bridge from rfl), Op.outcome_get_bind, if_neg hheld]
      rfl

theorem settings_pushAcceptLanguages (hreact : react.Leaves h) (b : BridgeRef) (k : HostRef) (w : World σ) :
    (((Bridge.pushAcceptLanguages b k).outcome react w).2.hosts h).settings = (w.hosts h).settings := by
  cases hservice : (w.contexts (w.bridges b).context).service with
  | none => rw [Bridge.outcome_pushAcceptLanguages_none react _ hservice]
  | some p =>
    rw [Bridge.outcome_pushAcceptLanguages react _ hservice, World.hosts_releaseQuietly, hreact]
    exact congrArg (fun hosts : HostRef → Host => (hosts h).settings) (World.hosts_consulted _ _)

theorem settings_updateAcceptLanguages (hreact : react.Leaves h) (b : BridgeRef) (w : World σ) :
    (((Bridge.updateAcceptLanguages b).outcome react w).2.hosts h).settings = (w.hosts h).settings := by
  cases hhost : w.isAlive (w.bridges b).host.object with
  | false =>
    have hinert : (Bridge.updateAcceptLanguages b).Inert w () :=
      Bridge.inert_withHost fun halive => absurd (hhost.symm.trans halive) Bool.false_ne_true
    rw [hinert react]
  | true =>
    rw [Bridge.updateAcceptLanguages, Bridge.outcome_withHost react _ hhost, World.hosts_releaseQuietly]
    exact hreact.settings_pushAcceptLanguages b _ _

theorem settings_updateBridge (hreact : react.Leaves h) (channel : Channel) (b : BridgeRef) (w : World σ) :
    (((Bridge.update channel b).outcome react w).2.hosts h).settings = (w.hosts h).settings := by
  by_cases hchannel : channel = .acceptLanguages
  · subst hchannel
    exact hreact.settings_updateAcceptLanguages b w
  · exact hreact.settings_of_moves (Bridge.moves_update_of_ne hchannel b) w

/-- What a host stores stays, whatever part of it is carried on. -/
theorem settings_update (hreact : react.Leaves h) (channel : Channel) (f : Settings → Settings) (w : World σ) :
    (((Host.update h channel f).outcome react w).2.hosts h).settings = f (w.hosts h).settings := by
  have hstored : ((w.stored h f).hosts h).settings = f (w.hosts h).settings := by
    rw [World.hosts_stored, Host.settings_withSettings]
  cases hattached : w.living? (w.hosts h).attached with
  | none =>
    rw [Host.outcome_update_alone react channel f hattached]
    exact hstored
  | some b =>
    rw [World.living?, Option.filter_eq_some_iff] at hattached
    rw [Host.outcome_update react channel f hattached.1 hattached.2, Op.outcome_bind, hreact.settings_release,
      hreact.settings_updateBridge]
    exact hstored

end Reaction.Leaves

/-! ## Replacing settings -/

namespace Host

theorem outcome_setSettings_ok (react : Reaction σ) (w : World σ) (h : HostRef) {s t : Settings}
    (htaken : s.validated = .ok t) :
    (setSettings h s).outcome react w = (.ok (), ((update h .everything fun _ => t).outcome react w).2) := by
  rw [setSettings, htaken]
  rfl

theorem outcome_setSettings_error (react : Reaction σ) (w : World σ) (h : HostRef) {s : Settings} {refusal : Refusal}
    (hrefused : s.validated = .error refusal) : (setSettings h s).outcome react w = (.error refusal, w) := by
  rw [setSettings, hrefused]
  rfl

theorem result_setSettings (react : Reaction σ) (w : World σ) (h : HostRef) (s : Settings) :
    ((setSettings h s).outcome react w).1 = s.validated.map fun _ => () := by
  cases hvalidated : s.validated with
  | ok t => rw [outcome_setSettings_ok react w h hvalidated, Except.map]
  | error refusal => rw [outcome_setSettings_error react w h hvalidated, Except.map]

variable {react : Reaction σ} {w : World σ} {h : HostRef} {s : Settings}

theorem setSettings_eq_ok_iff :
    ((setSettings h s).outcome react w).1 = .ok () ↔ ∀ r : Ranged, r.IsWithin s := by
  have htaken : (∃ t, s.validated = .ok t) ↔ ∀ r : Ranged, r.IsWithin s := by
    simp only [Settings.validated_eq_ok_iff, exists_and_right, exists_eq', true_and]
  rw [result_setSettings, ← htaken]
  cases s.validated <;> simp [Except.map]

theorem setSettings_eq_error_iff {refusal : Refusal} :
    ((setSettings h s).outcome react w).1 = .error refusal ↔
      ∃ r : Ranged, r.IsFirst s ∧ refusal = .invalidSetting (r.violation s) := by
  rw [result_setSettings, ← Settings.validated_eq_error_iff]
  cases s.validated <;> simp [Except.map]

/-- Refused settings change nothing and nobody hears of them. -/
theorem setSettings_refused (hrefused : ((setSettings h s).outcome react w).1 ≠ .ok ()) :
    ((setSettings h s).outcome react w).2 = w ∧ (setSettings h s).calls react w = [] := by
  rw [result_setSettings] at hrefused
  cases hvalidated : s.validated with
  | ok t =>
    rw [hvalidated] at hrefused
    exact absurd rfl hrefused
  | error refusal =>
    have hwatched := outcome_setSettings_error react.watched (w.watched []) h hvalidated
    rw [Op.calls, hwatched, outcome_setSettings_error react w h hvalidated]
    exact ⟨rfl, rfl⟩

theorem settings_setSettings (htaken : ((setSettings h s).outcome react w).1 = .ok ()) (hreact : react.Leaves h) :
    (((setSettings h s).outcome react w).2.hosts h).settings = s := by
  rw [setSettings_eq_ok_iff] at htaken
  rw [outcome_setSettings_ok react w h (Settings.validated_eq_ok_iff.2 ⟨rfl, htaken⟩)]
  exact hreact.settings_update _ _ w

end Host

/-! ## Reading documents -/

namespace Settings

theorem load_eq_ok_iff {text : String} {s : Settings} :
    load text = .ok s ↔ parse text = .ok s ∧ ∀ r : Ranged, r.IsWithin s := by
  rw [load]
  cases parse text with
  | error fault => simp
  | ok t =>
    rw [validated_eq_ok_iff, Except.ok.injEq]
    refine and_congr_right ?_
    rintro rfl
    rfl

theorem load_eq_error_iff {text : String} {refusal : Refusal} :
    load text = .error refusal ↔
      (∃ fault, parse text = .error fault ∧ refusal = .document fault) ∨
      ∃ t, parse text = .ok t ∧ ∃ r : Ranged, r.IsFirst t ∧ refusal = .invalidSetting (r.violation t) := by
  rw [load]
  cases parse text with
  | error fault => simp [eq_comm]
  | ok t => simp [validated_eq_error_iff]

end Settings

/-- Settings are taken by a host, or read from a document, exactly if every number among them is within its range.
Otherwise the first that is not is reported, and nothing has happened. -/
theorem accepted_exactly_within_ranges (s : Settings) :
    (Ranged.all.map fun r => (r.violation s).field) =
      ["default_font_size", "default_fixed_font_size", "text_size_percent", "initial_page_scale_percent",
        "dip_scale"] ∧
    (∀ {σ : Type} (react : Reaction σ) (w : World σ) (h : HostRef),
      let out := (Host.setSettings h s).outcome react w
      (out.1 = .ok () ↔ ∀ r : Ranged, r.IsWithin s) ∧
      (∀ refusal, out.1 = .error refusal ↔
        ∃ r : Ranged, r.IsFirst s ∧ refusal = .invalidSetting (r.violation s)) ∧
      (out.1 ≠ .ok () → out.2 = w ∧ (Host.setSettings h s).calls react w = []) ∧
      (out.1 = .ok () → react.Leaves h →
        (out.2.hosts h).settings = s ∧ ((Host.readSettings h).outcome react out.2).1 = s)) ∧
    ∀ text : String,
      (Settings.load text = .ok s ↔ Settings.parse text = .ok s ∧ ∀ r : Ranged, r.IsWithin s) ∧
      (∀ refusal, Settings.load text = .error refusal ↔
        (∃ fault, Settings.parse text = .error fault ∧ refusal = .document fault) ∨
        ∃ t, Settings.parse text = .ok t ∧
          ∃ r : Ranged, r.IsFirst t ∧ refusal = .invalidSetting (r.violation t)) ∧
      (Settings.load text = .ok s → ∀ {σ : Type} (react : Reaction σ) (w : World σ),
        let made := (Host.create s).outcome react w
        made.2.hosts made.1 = .memory s none ∧ ((Host.readSettings made.1).outcome react made.2).1 = s) := by
  refine ⟨rfl, fun {σ} react w h => ?_, fun text =>
    ⟨Settings.load_eq_ok_iff, fun refusal => Settings.load_eq_error_iff, fun _ {σ} react w => ?_⟩⟩
  · refine ⟨Host.setSettings_eq_ok_iff, fun refusal => Host.setSettings_eq_error_iff, Host.setSettings_refused,
      fun htaken hreact => ?_⟩
    have hsettings := Host.settings_setSettings htaken hreact
    refine ⟨hsettings, ?_⟩
    rw [Host.readSettings, Op.outcome_readHost]
    exact hsettings
  · have hmade : ((Host.create s).outcome react w).2.hosts ((Host.create s).outcome react w).1 = .memory s none :=
      replaceAt_self _ _ _
    refine ⟨hmade, ?_⟩
    rw [Host.readSettings, Op.outcome_readHost]
    exact congrArg Host.settings hmade

/-- A host with a living bridge refuses settings that break three ranges for the first of these, takes settings at
the ends of the ranges with a page scale of minus zero, and the same are read from a document. -/
theorem attached_host_takes_all_or_nothing : ∃ w : World Diary, w.Reached Diary.note [] ∧
    Host.isBridged w ⟨2⟩ = true ∧
    let react : Reaction Diary := fun c u => u.noted Diary.note (some c)
    let broken : Settings := { textSizePercent := 0, initialPageScalePercent := .nan, dipScale := .infinity false }
    let extreme : Settings := { defaultFontSize := 72, textSizePercent := 1, initialPageScalePercent := .zero true }
    (Host.setSettings ⟨2⟩ broken).outcome react w = (.error (.invalidSetting (.textSizePercent 0)), w) ∧
    (((Host.setSettings ⟨2⟩ extreme).outcome react w).2.hosts ⟨2⟩).settings = extreme ∧
    ((Host.create extreme).outcome react w).2.hosts ((Host.create extreme).outcome react w).1 =
      .memory extreme none := by
  let deeds : List Deed :=
    [.makeContext {} none, .makeSession { id := ⟨7⟩ }, .makeHost {}, .makeBridge ⟨0⟩ ⟨1⟩ ⟨2⟩, .attach ⟨2⟩ ⟨3⟩]
  let w : World Diary := World.after Diary.note deeds { embedder := [] }
  have hw : w.Reached Diary.note [] := World.evolves_after Diary.note deeds (.still _)
  refine ⟨w, hw, by decide +kernel, ?_⟩
  intro react broken extreme
  have hreact : react.Leaves ⟨2⟩ := fun _ _ => rfl
  obtain ⟨-, hbroken, -⟩ := accepted_exactly_within_ranges broken
  obtain ⟨-, hextreme, hload⟩ := accepted_exactly_within_ranges extreme
  obtain ⟨-, herror, hrefused, -⟩ := hbroken react w ⟨2⟩
  obtain ⟨hok, -, -, htaken⟩ := hextreme react w ⟨2⟩
  have hfirst : Ranged.IsFirst broken .textSizePercent := by
    refine ⟨by decide +kernel, [.defaultFontSize, .defaultFixedFontSize], _, rfl, ?_⟩
    decide +kernel
  have hreport := (herror (.invalidSetting (.textSizePercent 0))).2 ⟨.textSizePercent, hfirst, rfl⟩
  have hwithin : ∀ r : Ranged, r.IsWithin extreme := fun r => by
    cases r <;> decide +kernel
  let text := "\x7b\"default_font_size\":72,\"text_size_percent\":1,\"initial_page_scale_percent\":-0.0\x7d"
  have hread : Settings.parse text = .ok extreme := by decide +kernel
  obtain ⟨hloaded, -, hmade⟩ := hload text
  refine ⟨Prod.ext hreport (hrefused ?_).1, (htaken (hok.2 hwithin) hreact).1, ?_⟩
  · rw [hreport]
    simp
  · exact (hmade (hloaded.2 ⟨hread, hwithin⟩) react w).1

end SettingsRelay
