import SettingsRelay.Proofs.Acceptance
import SettingsRelay.Proofs.Effect
import SettingsRelay.Proofs.Overlay

/-!
# Single changes

A change is ignored, or it puts one value into one field and has one part carried to the engine. Which field it
is, what is in it afterwards and which operation of a bridge carries the part are written down here change by
change, so that they can be compared with what a host does, whatever its settings are.

The bridge that is attached may be alive, dead or not there. If it is alive, the host stores the new settings
and everything else is what an application gets that asks this bridge itself, whoever is called and whatever
they do; it does not matter whether the settings had the value already. If those who are called change only what
is outside, holding the bridge meanwhile leaves no trace. Nothing is under lease when a host is changed.
-/

namespace SettingsRelay

variable {σ : Type}

/-! ## What changes are about -/

theorem toInt_clipFontSize (size : Int32) : (clipFontSize size).toInt = max 1 (min size.toInt 72) := by
  have hmin : minFontSize.toInt = 1 := rfl
  have hmax : maxFontSize.toInt = 72 := rfl
  simp only [clipFontSize, Int32.lt_iff_toInt_lt, hmin, hmax]
  split
  · omega
  · split <;> omega

theorem clipFontSize_eq {size n : Int32} (hn : n.toInt = max 1 (min size.toInt 72)) : clipFontSize size = n :=
  Int32.toInt_inj.1 ((toInt_clipFontSize size).trans hn.symm)

namespace Change

/-- The name that a setting has in documents. -/
def setting : Change → String
  | javascriptEnabled _ => "javascript_enabled"
  | imagesEnabled _ => "images_enabled"
  | loadsImagesAutomatically _ => "loads_images_automatically"
  | domStorageEnabled _ => "dom_storage_enabled"
  | databaseEnabled _ => "database_enabled"
  | useWideViewport _ => "use_wide_viewport"
  | quirksModeEnabled _ => "quirks_mode_enabled"
  | layoutAlgorithm _ => "layout_algorithm"
  | textZoom _ => "text_size_percent"
  | defaultFontSize _ => "default_font_size"
  | defaultFixedFontSize _ => "default_fixed_font_size"
  | userAgent _ => "user_agent"
  | initialPageScale _ => "initial_page_scale_percent"
  | saveFormData _ => "save_form_data"
  | acceptLanguages _ => "accept_languages"

/-- Whether settings have what a change asks for: the nearest font size, no user agent for an empty one, and
otherwise the very value that is given. -/
def Holds (s : Settings) : Change → Prop
  | javascriptEnabled b => s.javascriptEnabled = b
  | imagesEnabled b => s.imagesEnabled = b
  | loadsImagesAutomatically b => s.loadsImagesAutomatically = b
  | domStorageEnabled b => s.domStorageEnabled = b
  | databaseEnabled b => s.databaseEnabled = b
  | useWideViewport b => s.useWideViewport = b
  | quirksModeEnabled b => s.quirksModeEnabled = b
  | layoutAlgorithm a => s.layoutAlgorithm = a
  | textZoom percent => s.textSizePercent = percent
  | defaultFontSize size => s.defaultFontSize.toInt = max 1 (min size.toInt 72)
  | defaultFixedFontSize size => s.defaultFixedFontSize.toInt = max 1 (min size.toInt 72)
  | userAgent agent => s.userAgent = if agent = some "" then none else agent
  | initialPageScale percent => s.initialPageScalePercent = percent
  | saveFormData b => s.saveFormData = b
  | acceptLanguages languages => s.acceptLanguages = languages

def IsIgnored : Change → Prop
  | textZoom percent => percent.toInt ≤ 0
  | initialPageScale percent => percent = .nan ∨ (∃ negative, percent = .infinity negative) ∨ percent.toRat < 0
  | _ => False

def action : Change → BridgeAction
  | userAgent _ => .updateUserAgent
  | initialPageScale _ => .updatePageScale
  | saveFormData _ => .updateFormData
  | acceptLanguages _ => .updateAcceptLanguages
  | _ => .updatePreferences

variable {change : Change} {s : Settings}

theorem isTaken_eq_false_iff : change.isTaken = false ↔ change.IsIgnored := by
  cases change with
  | textZoom percent =>
    rw [isTaken, IsIgnored, decide_eq_false_iff_not, Int32.lt_iff_toInt_lt]
    exact Int.not_lt
  | initialPageScale percent =>
    rw [isTaken, IsIgnored, ← Bool.not_eq_true, Settings.acceptsPageScale_iff, not_and_or, Bool.not_eq_true,
      Binary.isFinite_eq_false_iff, not_le, or_assoc]
  | _ => exact iff_of_false Bool.true_eq_false_eq_False id

theorem holds_apply (change : Change) (s : Settings) : change.Holds (change.apply s) := by
  cases change with
  | defaultFontSize size | defaultFixedFontSize size => exact toInt_clipFontSize size
  | userAgent agent =>
    cases agent with
    | none => rfl
    | some text => by_cases hempty : text = "" <;> simp [Holds, apply, hempty]
  | _ => rfl

theorem apply_of_holds (hholds : change.Holds s) : change.apply s = s := by
  cases change with
  | defaultFontSize size | defaultFixedFontSize size => rw [apply, clipFontSize_eq hholds]
  | userAgent agent =>
    have hagent : (apply (userAgent agent) s).userAgent = s.userAgent :=
      (holds_apply (userAgent agent) s).trans hholds.symm
    exact congrArg (fun agent => { s with userAgent := agent }) hagent
  | _ =>
    cases hholds
    rfl

theorem apply_eq_self_iff : change.apply s = s ↔ change.Holds s := by
  refine ⟨fun hsame => ?_, apply_of_holds⟩
  rw [← hsame]
  exact change.holds_apply s

instance (s : Settings) (change : Change) : Decidable (change.Holds s) := decidable_of_iff _ apply_eq_self_iff

instance (change : Change) : Decidable change.IsIgnored := decidable_of_iff _ isTaken_eq_false_iff

/-- A change gives one field a value, which does not depend on the settings. -/
theorem exists_field (change : Change) :
    ∃ f ∈ Settings.schema.fields, f.name = change.setting ∧ ∃ x, ∀ s, change.apply s = f.set x s := by
  -- each field is found at its place among the fields of the settings
  cases change with
  | javascriptEnabled x => exact ⟨_, List.get_mem _ ⟨3, by decide⟩, rfl, x, fun _ => rfl⟩
  | imagesEnabled x => exact ⟨_, List.get_mem _ ⟨2, by decide⟩, rfl, x, fun _ => rfl⟩
  | loadsImagesAutomatically x => exact ⟨_, List.get_mem _ ⟨1, by decide⟩, rfl, x, fun _ => rfl⟩
  | domStorageEnabled x => exact ⟨_, List.get_mem _ ⟨8, by decide⟩, rfl, x, fun _ => rfl⟩
  | databaseEnabled x => exact ⟨_, List.get_mem _ ⟨9, by decide⟩, rfl, x, fun _ => rfl⟩
  | useWideViewport x => exact ⟨_, List.get_mem _ ⟨10, by decide⟩, rfl, x, fun _ => rfl⟩
  | quirksModeEnabled x => exact ⟨_, List.get_mem _ ⟨18, by decide⟩, rfl, x, fun _ => rfl⟩
  | layoutAlgorithm x => exact ⟨_, List.get_mem _ ⟨21, by decide⟩, rfl, x, fun _ => rfl⟩
  | textZoom x => exact ⟨_, List.get_mem _ ⟨14, by decide⟩, rfl, x, fun _ => rfl⟩
  | defaultFontSize size => exact ⟨_, List.get_mem _ ⟨15, by decide⟩, rfl, clipFontSize size, fun _ => rfl⟩
  | defaultFixedFontSize size => exact ⟨_, List.get_mem _ ⟨16, by decide⟩, rfl, clipFontSize size, fun _ => rfl⟩
  | userAgent agent => exact ⟨_, List.get_mem _ ⟨26, by decide⟩, rfl, agent.filter (· ≠ ""), fun _ => rfl⟩
  | initialPageScale x => exact ⟨_, List.get_mem _ ⟨27, by decide⟩, rfl, x, fun _ => rfl⟩
  | saveFormData x => exact ⟨_, List.get_mem _ ⟨29, by decide⟩, rfl, x, fun _ => rfl⟩
  | acceptLanguages x => exact ⟨_, List.get_mem _ ⟨25, by decide⟩, rfl, x, fun _ => rfl⟩

theorem get_apply_of_ne {f : Field Settings} (hf : f ∈ Settings.schema.fields) (hname : f.name ≠ change.setting)
    (s : Settings) : f.get (change.apply s) = f.get s := by
  obtain ⟨g, hg, hsetting, x, happly⟩ := change.exists_field
  rw [← hsetting] at hname
  rw [happly]
  exact Settings.isIndependent_schema.get_set_of_ne f hf g hg hname x s

theorem perform_action (change : Change) (b : BridgeRef) :
    (change.action.perform b : Op σ Unit) = Bridge.update change.channel b := by
  cases change <;> rfl

end Change

/-! ## Holding a bridge -/

theorem World.hosts_told_memory {answer : Call → Outside σ → Outside σ} (cs : List Call) (w : World σ) {h : HostRef}
    {s : Settings} {slot : Option BridgeRef} (hhost : w.hosts h = .memory s slot) :
    (w.told (.apart answer) cs).hosts h = .memory s slot := by
  obtain ⟨o, ho⟩ := exists_told_eq answer cs w
  rw [ho]
  exact congrArg (Host.answering (o.settings h) (o.overrides h)) hhost

namespace Op

variable {react : Reaction σ} {w v : World σ} {b : BridgeRef}

/-- A bridge that is alive in the end anyway is held without a trace. -/
theorem outcome_holding_back {body : Op σ Unit} (halive : v.isAlive b.object = true)
    (hbody : body.outcome react (w.acquire .call b.object) = ((), v.acquire .call b.object)) :
    (holding b.object body).outcome react w = ((), v) := by
  have hback := v.withdraw_acquire .call b.object
  have hkept : ((v.acquire .call b.object).withdraw .call b.object).isAlive b.object = true := by rwa [hback]
  change (do body; release .call b.object : Op σ Unit).outcome react (w.acquire .call b.object) = _
  rw [outcome_bind, hbody, outcome_release_bridge react hkept, hback]

theorem makes_holding_back {watched : Op (σ × List Call) Unit} {body : Op σ Unit} {cs : List Call}
    (halive : v.isAlive b.object = true)
    (hbody : body.outcome react (w.acquire .call b.object) = ((), v.acquire .call b.object))
    (hmakes : Makes watched body react (w.acquire .call b.object) cs) :
    Makes (holding b.object watched) (holding b.object body) react w cs := by
  intro before
  have hwatched := hmakes before
  rw [hbody] at hwatched
  rw [outcome_holding_back halive hbody]
  exact outcome_holding_back (v := v.watched (before ++ cs)) halive hwatched

end Op

namespace Bridge

variable {w : World σ} (b : BridgeRef) {action : BridgeAction}

/-- The actions that carry one part. -/
def carriers : List BridgeAction :=
  [.updatePageScale, .updatePreferences, .updateUserAgent, .updateFormData, .updateAcceptLanguages]

theorem isAlive_host_acquire : (w.acquire .call b.object).isAlive ((w.acquire .call b.object).bridges b).host.object =
    w.isAlive (w.bridges b).host.object :=
  World.isAlive_acquire_of_ne (by simp [Ref.object])

theorem isAlive_session_acquire :
    (w.acquire .call b.object).isAlive ((w.acquire .call b.object).bridges b).session.object =
      w.isAlive (w.bridges b).session.object :=
  World.isAlive_acquire_of_ne (by simp [Ref.object])

/-- Who holds a bridge does not matter to what it calls for. -/
theorem actionCalls_acquire (answer : Call → Outside σ → Outside σ) (hquiet : w.leases = [])
    (hcarries : action ∈ carriers) :
    actionCalls (.apart answer) b (w.acquire .call b.object) action = actionCalls (.apart answer) b w action := by
  have hkept : (w.acquire .call b.object).leases = [] := hquiet
  simp only [carriers, List.mem_cons, List.not_mem_nil, or_false] at hcarries
  rcases hcarries with rfl | rfl | rfl | rfl | rfl
  · rw [actionCalls_updatePageScale, actionCalls_updatePageScale, isAlive_host_acquire, isAlive_session_acquire]
    rfl
  · rw [actionCalls_updatePreferences, actionCalls_updatePreferences, isAlive_host_acquire, isAlive_session_acquire]
    rfl
  · rw [actionCalls_updateUserAgent answer hkept, actionCalls_updateUserAgent answer hquiet, isAlive_host_acquire,
      isAlive_session_acquire]
    dsimp only
    rw [World.told_acquire]
    rfl
  · exact (ite_self _).trans (ite_self _).symm
  · rw [actionCalls_updateAcceptLanguages, actionCalls_updateAcceptLanguages, isAlive_host_acquire]
    rfl

/-- Nor to what it does. -/
theorem outcome_action_acquire (answer : Call → Outside σ → Outside σ) (hquiet : w.leases = [])
    (hcarries : action ∈ carriers) : ∃ v : World σ, v.isAlive b.object = w.isAlive b.object ∧
      (∀ h s slot, w.hosts h = .memory s slot → v.hosts h = .memory s slot) ∧
      (action.perform b).outcome (.apart answer) w = ((), v) ∧
      (action.perform b).outcome (.apart answer) (w.acquire .call b.object) = ((), v.acquire .call b.object) := by
  have hkept : (w.acquire .call b.object).leases = [] := hquiet
  -- form data is saved without a call, all else is done by calls alone
  by_cases hform : action = .updateFormData
  · subst hform
    have hheld := outcome_updateFormData (b := b) (.apart answer) hkept
    rw [isAlive_host_acquire, isAlive_session_acquire, formSaving_acquire, ← apply_ite (World.acquire · _ _)] at hheld
    refine ⟨_, ?_, fun h s slot hhost => ?_, outcome_updateFormData _ hquiet, hheld⟩
    · rw [apply_ite (World.isAlive · _), isAlive_formSaving, ite_self]
    · rw [apply_ite (World.hosts · _), hosts_formSaving, ite_self]
      exact hhost
  · have htelling : action ∈
        [.updatePageScale, .updatePreferences, .updateUserAgent, .updateAcceptLanguages, .resetScroll] := by
      cases action <;> simp_all [carriers]
    have hbare := (onlyCalls_action b answer hquiet action htelling).outcome
    have hheld := (onlyCalls_action b answer hkept action htelling).outcome
    rw [actionCalls_acquire b answer hquiet hcarries, World.told_acquire] at hheld
    exact ⟨_, World.isAlive_told _ w _, fun h s slot => World.hosts_told_memory _ w, hbare, hheld⟩

end Bridge

theorem Change.action_mem_carriers (change : Change) : change.action ∈ Bridge.carriers := by
  cases change <;> simp [action, Bridge.carriers]

namespace Deed

variable {w : World σ} {b : BridgeRef}

theorem outcome_act (react : Reaction σ) (halive : w.isAlive b.object = true) (action : BridgeAction) :
    (act b action).perform.outcome react w = (Op.holding b.object (action.perform b)).outcome react w := by
  rw [perform, Op.useBridge, Op.outcome_get_bind, if_pos halive]

theorem calls_act (react : Reaction σ) (halive : w.isAlive b.object = true) (action : BridgeAction) :
    (act b action).perform.calls react w = (Op.holding b.object (action.perform b)).calls react w :=
  congrArg (fun out => out.2.embedder.2) (outcome_act (w := w.watched []) react.watched halive action)

/-- Who asks a bridge for one part gets just what the bridge does by itself. -/
theorem act_eq (answer : Call → Outside σ → Outside σ) (hquiet : w.leases = []) (halive : w.isAlive b.object = true)
    {action : BridgeAction} (hcarries : action ∈ Bridge.carriers) :
    (act b action).perform.outcome (.apart answer) w = (action.perform b).outcome (.apart answer) w ∧
    (act b action).perform.calls (.apart answer) w = (action.perform b).calls (.apart answer) w := by
  obtain ⟨v, hsame, -, hbare, hheld⟩ := Bridge.outcome_action_acquire b answer hquiet hcarries
  have hkept : v.isAlive b.object = true := hsame.trans halive
  have hmakes := Bridge.makes_action (.apart answer) b (w.acquire .call b.object) action
  rw [outcome_act _ halive, calls_act _ halive]
  refine ⟨(Op.outcome_holding_back hkept hheld).trans hbare.symm, ?_⟩
  rw [(Op.makes_holding_back hkept hheld hmakes).calls, (Bridge.makes_action _ b w action).calls]
  exact Bridge.actionCalls_acquire b answer hquiet hcarries

theorem hosts_act (answer : Call → Outside σ → Outside σ) (hquiet : w.leases = []) (halive : w.isAlive b.object = true)
    {action : BridgeAction} (hcarries : action ∈ Bridge.carriers) {h : HostRef} {s : Settings} {slot : Option BridgeRef}
    (hhost : w.hosts h = .memory s slot) :
    (((act b action).perform.outcome (.apart answer) w).2.hosts h) = .memory s slot := by
  obtain ⟨v, -, hhosts, hbare, -⟩ := Bridge.outcome_action_acquire b answer hquiet hcarries
  rw [(act_eq answer hquiet halive hcarries).1, hbare]
  exact hhosts h s slot hhost

end Deed

/-! ## Changing a host -/

section Set

variable {w : World σ} {h : HostRef} {s : Settings} {slot : Option BridgeRef} {change : Change}

theorem World.stored_of_leases (hquiet : w.leases = []) (hhost : w.hosts h = .memory s slot)
    (f : Settings → Settings) : w.stored h f = w.changeHost h fun _ => .memory (f s) slot := by
  have hkept : (w.changeHost h fun host => host.withSettings (f host.settings)).leases = [] := hquiet
  rw [stored, leased_of_leases hkept, changeHost, changeHost, hhost]
  rfl

theorem World.changeHost_self (hhost : w.hosts h = .memory s slot) :
    (w.changeHost h fun _ => .memory s slot) = w := by
  rw [changeHost, ← hhost, replaceAt_eq_self]

namespace Host

theorem set_eq_update (h : HostRef) (htaken : ¬change.IsIgnored) :
    (set h change : Op σ Unit) = update h change.channel change.apply := by
  rw [← Change.isTaken_eq_false_iff, Bool.not_eq_false] at htaken
  exact if_pos htaken

theorem outcome_set_ignored (react : Reaction σ) (w : World σ) (h : HostRef) (hignored : change.IsIgnored) :
    (set h change).outcome react w = ((), w) := by
  rw [set, Change.isTaken_eq_false_iff.2 hignored]
  rfl

theorem outcome_set_alone (react : Reaction σ) (hquiet : w.leases = []) (hhost : w.hosts h = .memory s slot)
    (htaken : ¬change.IsIgnored) (hdead : ∀ b ∈ slot, w.isAlive b.object = false) :
    (set h change).outcome react w = ((), w.changeHost h fun _ => .memory (change.apply s) slot) := by
  have hnone : w.living? (w.hosts h).attached = none := by
    rw [hhost, World.living?, Option.filter_eq_none_iff]
    exact fun b hb => Bool.not_eq_true _ ▸ hdead b hb
  have hkept : (w.changeHost h fun _ => .memory (change.apply s) slot).leases = [] := hquiet
  rw [set_eq_update h htaken, outcome_update_alone react _ _ hnone, World.stored_of_leases hquiet hhost,
    World.leased_of_leases hkept]

/-- A host whose bridge is alive stores, and then does what the bridge would be asked for by an application. -/
theorem outcome_set_bridged (react : Reaction σ) (hquiet : w.leases = []) (hhost : w.hosts h = .memory s slot)
    (htaken : ¬change.IsIgnored) {b : BridgeRef} (hb : b ∈ slot) (halive : w.isAlive b.object = true) :
    (set h change).outcome react w = (Deed.act b change.action).perform.outcome react
      (w.changeHost h fun _ => .memory (change.apply s) slot) := by
  have hattached : (w.hosts h).attached = some b := by
    rw [hhost]
    exact hb
  have hkept : (w.changeHost h fun _ => .memory (change.apply s) slot).leases = [] := hquiet
  have hlives : (w.changeHost h fun _ => .memory (change.apply s) slot).isAlive b.object = true := halive
  rw [set_eq_update h htaken, outcome_update react _ _ hattached halive, World.stored_of_leases hquiet hhost,
    World.leased_of_leases hkept, Deed.outcome_act react hlives, change.perform_action]
  rfl

theorem calls_set_ignored (react : Reaction σ) (w : World σ) (h : HostRef) (hignored : change.IsIgnored) :
    (set h change).calls react w = [] :=
  congrArg (fun out => out.2.embedder.2) (outcome_set_ignored react.watched (w.watched []) h hignored)

theorem calls_set_alone (react : Reaction σ) (hquiet : w.leases = []) (hhost : w.hosts h = .memory s slot)
    (htaken : ¬change.IsIgnored) (hdead : ∀ b ∈ slot, w.isAlive b.object = false) : (set h change).calls react w = [] :=
  congrArg (fun out => out.2.embedder.2) (outcome_set_alone (w := w.watched []) react.watched hquiet hhost htaken hdead)

theorem calls_set_bridged (react : Reaction σ) (hquiet : w.leases = []) (hhost : w.hosts h = .memory s slot)
    (htaken : ¬change.IsIgnored) {b : BridgeRef} (hb : b ∈ slot) (halive : w.isAlive b.object = true) :
    (set h change).calls react w = (Deed.act b change.action).perform.calls react
      (w.changeHost h fun _ => .memory (change.apply s) slot) :=
  congrArg (fun out => out.2.embedder.2)
    (outcome_set_bridged (w := w.watched []) react.watched hquiet hhost htaken hb halive)

theorem settings_set {react : Reaction σ} (hreact : react.Leaves h) (hhost : w.hosts h = .memory s slot)
    (htaken : ¬change.IsIgnored) : (((set h change).outcome react w).2.hosts h).settings = change.apply s := by
  rw [set_eq_update h htaken, hreact.settings_update, hhost]
  rfl

theorem hosts_set (answer : Call → Outside σ → Outside σ) (hquiet : w.leases = []) (hhost : w.hosts h = .memory s slot)
    (htaken : ¬change.IsIgnored) :
    ((set h change).outcome (.apart answer) w).2.hosts h = .memory (change.apply s) slot := by
  have hstored : (w.changeHost h fun _ => .memory (change.apply s) slot).hosts h = .memory (change.apply s) slot :=
    replaceAt_self _ _ _
  by_cases hdead : ∀ b ∈ slot, w.isAlive b.object = false
  · rw [outcome_set_alone _ hquiet hhost htaken hdead]
    exact hstored
  · push Not at hdead
    obtain ⟨b, hb, halive⟩ := hdead
    rw [ne_eq, Bool.not_eq_false] at halive
    rw [outcome_set_bridged _ hquiet hhost htaken hb halive]
    exact Deed.hosts_act (w := w.changeHost h fun _ => .memory (change.apply s) slot) answer hquiet halive
      change.action_mem_carriers hstored

end Host

end Set

/-- A change is ignored without a trace, or it changes one setting and then does what an application gets that asks
the attached bridge for the one part that the change belongs to. -/
theorem changes_carry_what_they_store {w : World Diary} (hw : w.Reached Diary.note []) :
    (∀ v ∈ w.seen, v.leases = []) ∧
    ∀ {τ : Type} {v : World τ}, v.leases = [] →
      ∀ (h : HostRef) (s : Settings) (slot : Option BridgeRef), v.hosts h = .memory s slot →
      ∀ (change : Change) (react : Reaction τ),
        let out := (Host.set h change).outcome react v
        let calls := (Host.set h change).calls react v
        (change.IsIgnored → out = ((), v) ∧ calls = []) ∧
        (¬change.IsIgnored → ∃ t : Settings, change.Holds t ∧
          (∀ f ∈ Settings.schema.fields, f.name ≠ change.setting → f.get t = f.get s) ∧
          (react.Leaves h ∨ (∃ answer, react = .apart answer) →
            ((Host.readSettings h).outcome react out.2).1 = t) ∧
          let after := v.changeHost h fun _ => .memory t slot
          (change.Holds s → after = v) ∧
          ((∀ b ∈ slot, v.isAlive b.object = false) → out = ((), after) ∧ calls = []) ∧
          ∀ b ∈ slot, v.isAlive b.object = true →
            (out = (Deed.act b change.action).perform.outcome react after ∧
              calls = (Deed.act b change.action).perform.calls react after) ∧
            ∀ answer, react = .apart answer →
              out = (change.action.perform b).outcome react after ∧
                calls = (change.action.perform b).calls react after) := by
  refine ⟨World.leases_of_seen hw, ?_⟩
  intro τ v hquiet h s slot hhost change react
  refine ⟨fun hignored => ⟨Host.outcome_set_ignored react v h hignored, Host.calls_set_ignored react v h hignored⟩,
    fun htaken => ?_⟩
  refine ⟨change.apply s, change.holds_apply s, fun f hf hname => Change.get_apply_of_ne hf hname s, fun hreact => ?_,
    fun hholds => ?_, fun hdead => ?_, fun b hb halive => ?_⟩
  · rw [Host.readSettings, Op.outcome_readHost]
    rcases hreact with hleaves | ⟨answer, rfl⟩
    · exact Host.settings_set hleaves hhost htaken
    · exact congrArg Host.settings (Host.hosts_set answer hquiet hhost htaken)
  · rw [Change.apply_of_holds hholds]
    exact World.changeHost_self hhost
  · exact ⟨Host.outcome_set_alone react hquiet hhost htaken hdead, Host.calls_set_alone react hquiet hhost htaken hdead⟩
  · have hout := Host.outcome_set_bridged react hquiet hhost htaken hb halive
    have hcalls := Host.calls_set_bridged react hquiet hhost htaken hb halive
    refine ⟨⟨hout, hcalls⟩, ?_⟩
    rintro answer rfl
    obtain ⟨hbare, hbareCalls⟩ := Deed.act_eq (w := v.changeHost h fun _ => .memory (change.apply s) slot)
      answer hquiet halive change.action_mem_carriers
    exact ⟨hout.trans hbare, hcalls.trans hbareCalls⟩

/-- The greatest font size is carried again when a greater one is asked for. An empty user agent takes the one away
that there is, and what is not a number is ignored. -/
theorem greatest_size_is_carried_again : ∃ w : World Diary, w.Reached Diary.note [] ∧
    let react : Reaction Unit := .apart fun _ o => o
    ((Host.set ⟨2⟩ (.defaultFontSize 500)).calls react w.bare = [.preferencesChanged ⟨1⟩] ∧
      (Host.set ⟨2⟩ (.defaultFontSize 500)).outcome react w.bare =
        (Bridge.updatePreferences ⟨3⟩).outcome react w.bare) ∧
    (let out := (Host.set ⟨2⟩ (.userAgent (some ""))).outcome react w.bare
      let t := ((Host.readSettings ⟨2⟩).outcome react out.2).1
      t.userAgent = none ∧ t.textSizePercent = 0) ∧
    (Host.set ⟨2⟩ (.initialPageScale .nan)).outcome react w.bare = ((), w.bare) := by
  let s : Settings := { textSizePercent := 0, defaultFontSize := 72, userAgent := some "agent" }
  let deeds : List Deed :=
    [.makeContext {} none, .makeSession { id := ⟨7⟩ }, .makeHost s, .makeBridge ⟨0⟩ ⟨1⟩ ⟨2⟩, .attach ⟨2⟩ ⟨3⟩]
  let w : World Diary := World.after Diary.note deeds { embedder := [] }
  have hw : w.Reached Diary.note [] := World.evolves_after Diary.note deeds (.still _)
  refine ⟨w, hw, ?_⟩
  intro react
  have hhost : w.bare.hosts ⟨2⟩ = .memory s (some ⟨3⟩) := rfl
  have halive : w.bare.isAlive (Ref.object (⟨3⟩ : BridgeRef)) = true := by decide +kernel
  obtain ⟨hquiet, hset⟩ := changes_carry_what_they_store hw
  have hbare := hquiet w.bare List.mem_cons_self
  obtain ⟨-, hsize⟩ := hset hbare _ _ _ hhost (.defaultFontSize 500) react
  obtain ⟨-, hagent⟩ := hset hbare _ _ _ hhost (.userAgent (some "")) react
  obtain ⟨hscale, -⟩ := hset hbare _ _ _ hhost (.initialPageScale .nan) react
  refine ⟨?_, ?_, (hscale (by decide)).1⟩
  · obtain ⟨t, -, -, -, hsame, -, hasked⟩ := hsize (by decide)
    obtain ⟨-, hdoes⟩ := hasked ⟨3⟩ rfl halive
    obtain ⟨hout, hcalls⟩ := hdoes _ rfl
    rw [hsame (by decide +kernel)] at hout hcalls
    refine ⟨hcalls.trans ?_, hout⟩
    decide +kernel
  · obtain ⟨t, hholds, hframe, hread, -⟩ := hagent (by decide)
    have hzoom := hframe (Settings.schema.fields.get ⟨14, by decide⟩) (List.get_mem _ _) (by decide)
    have ht := hread (.inr ⟨_, rfl⟩)
    exact ⟨(congrArg Settings.userAgent ht).trans hholds, (congrArg Settings.textSizePercent ht).trans hzoom⟩

end SettingsRelay
