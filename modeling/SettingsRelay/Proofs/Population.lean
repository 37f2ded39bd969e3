import SettingsRelay.Proofs.Application
import SettingsRelay.Proofs.Calls
import SettingsRelay.Proofs.Push

/-!
# Population as a snapshot

Preferences are filled in from what the host answers before the engine is called. The call falls in the middle
of the work, and whatever happens during it the preferences and the factor that was sent are one function of the
answers at the start. All that is left to do after the call is to let the host go.

Of that function it is said here that the two settings for images are crossed, that displaying insecure content
is allowed unless the switch against it is set, that both quirks of the viewport are on in quirks mode, and that
four preferences are always the same. An autosizer leaves the zoom of the render view at one.
-/

namespace SettingsRelay

variable {σ : Type}

/-- All that is read to fill in preferences: the settings of a host, what the host answers in the
four matters where it need not follow them, and the runtime switches. -/
structure Particulars where
  settings : Settings
  appCacheEnabled : Bool
  passwordEchoEnabled : Bool
  supportsDoubleTapZoom : Bool
  textAutosizingEnabled : Bool
  switches : Switches

namespace Particulars

def host (r : Particulars) : Host :=
  .custom r.settings
    { appCacheEnabled := some r.appCacheEnabled
      passwordEchoEnabled := some r.passwordEchoEnabled
      supportsDoubleTapZoom := some r.supportsDoubleTapZoom
      textAutosizingEnabled := some r.textAutosizingEnabled }

def fill (r : Particulars) (p : Preferences) : Preferences := p.populated r.host r.switches

def factor (r : Particulars) : Single := r.host.textZoom.factor

end Particulars

def Host.particulars (h : Host) (switches : Switches) : Particulars where
  settings := h.settings
  appCacheEnabled := h.appCacheEnabled
  passwordEchoEnabled := h.passwordEchoEnabled
  supportsDoubleTapZoom := h.supportsDoubleTapZoom
  textAutosizingEnabled := h.textAutosizingEnabled
  switches := switches

def World.particulars (w : World σ) (b : BridgeRef) : Particulars :=
  (w.hosts (w.bridges b).host).particulars (w.contexts (w.bridges b).context).switches

namespace Particulars

theorem fill_particulars (h : Host) (switches : Switches) (p : Preferences) :
    (h.particulars switches).fill p = p.populated h switches := rfl

theorem factor_particulars (h : Host) (switches : Switches) :
    (h.particulars switches).factor = h.textZoom.factor := rfl

theorem factor_of_autosizing {r : Particulars} (h : r.textAutosizingEnabled = true) :
    r.factor = .ofNat 1 := by
  have hhost : r.host.textAutosizingEnabled = true := h
  rw [factor, Host.textZoom, TextZoom.ofPercent, hhost]
  rfl

end Particulars

/-! ## The one call -/

namespace Bridge

variable {w : World σ} {b : BridgeRef}

theorem extension?_of_alive (holder : Holder) (o : Object)
    (hsession : w.isAlive (w.bridges b).session.object = true)
    (hextension : (w.sessions (w.receiver (w.bridges b).session)).hasExtension = true) :
    extension? (w.acquire holder o) b = some (w.receiver (w.bridges b).session) := by
  have hboth : ((w.acquire holder o).isAlive (w.bridges b).session.object &&
      (w.sessions (w.receiver (w.bridges b).session)).hasExtension) = true := by
    rw [World.isAlive_acquire_of_alive hsession, hextension, Bool.and_self]
  exact if_pos hboth

section Served

variable (hhost : w.isAlive (w.bridges b).host.object = true)
  (hsession : w.isAlive (w.bridges b).session.object = true)
  (hextension : (w.sessions (w.receiver (w.bridges b).session)).hasExtension = true)

include hhost hsession hextension

/-- The preferences are settled before the call, and after it only the host is let go. -/
theorem outcome_populate_served (react : Reaction σ) (p : Preferences) :
    (populate b p).outcome react w =
      ((w.particulars b).fill p,
        (react (.textZoom (w.receiver (w.bridges b).session) (w.particulars b).factor)
          ((w.acquire .call (w.bridges b).host.object).consulted (w.bridges b).host)).releaseQuietly
            .call (w.bridges b).host.object) := by
  rw [World.particulars, Particulars.fill_particulars, Particulars.factor_particulars]
  exact outcome_populate react p hhost (extension?_of_alive _ _ hsession hextension)

theorem calls_populate (react : Reaction σ) (p : Preferences) :
    (populate b p).calls react w =
      [.textZoom (w.receiver (w.bridges b).session) (w.particulars b).factor] := by
  have hwatched := outcome_populate_served (w := w.watched []) (b := b) hhost hsession hextension react.watched p
  rw [Op.calls, hwatched]
  dsimp only
  rw [World.embedder_releaseQuietly, Reaction.calls_watched, World.embedder_consulted]
  rfl

/-- The bridge that is looked up is kept alive while it fills in preferences, and no longer. -/
theorem fst_outcome_populateFor (react : Reaction σ) (p : Preferences) {c : ContextRef} {s : SessionRef}
    (hfound : w.living? ((w.contexts c).entered? (w.sessions s).id) = some b) :
    ((populateFor c s p).outcome react w).1 = (w.particulars b).fill p := by
  rw [populateFor, Op.outcome_get_bind, Op.outcome_bind, Registry.outcome_find?, hfound]
  dsimp only [Option.map_some, World.acquire?]
  rw [Op.outcome_bind, outcome_populate_served]
  · rfl
  · exact World.isAlive_acquire_of_alive hhost
  · exact World.isAlive_acquire_of_alive hsession
  · exact hextension

end Served

end Bridge

/-- Whatever happens during the one call that a bridge makes when it fills in preferences, the factor that is sent and
the preferences that result follow from the particulars at the start. -/
theorem population_is_a_snapshot {w : World σ} {b : BridgeRef}
    (hhost : w.isAlive (w.bridges b).host.object = true)
    (hsession : w.isAlive (w.bridges b).session.object = true)
    (hextension : (w.sessions (w.receiver (w.bridges b).session)).hasExtension = true)
    (react : Reaction σ) (p : Preferences) :
    let zoom := Call.textZoom (w.receiver (w.bridges b).session) (w.particulars b).factor
    (Bridge.populate b p).calls react w = [zoom] ∧
    (Bridge.populate b p).outcome react w =
      ((w.particulars b).fill p,
        (react zoom ((w.acquire .call (w.bridges b).host.object).consulted (w.bridges b).host)).releaseQuietly
          .call (w.bridges b).host.object) ∧
    (∀ c s, w.living? ((w.contexts c).entered? (w.sessions s).id) = some b →
      ((Bridge.populateFor c s p).outcome react w).1 = (w.particulars b).fill p) ∧
    ∀ (r : Particulars) (p : Preferences),
      (r.fill p).imagesEnabled = r.settings.loadsImagesAutomatically ∧
      (r.fill p).loadsImagesAutomatically = r.settings.imagesEnabled ∧
      (r.fill p).allowDisplayingInsecureContent = !r.switches.noDisplayingInsecureContent ∧
      (r.fill p).viewportMetaNonUserScalableQuirk = r.settings.quirksModeEnabled ∧
      (r.fill p).clobberUserAgentInitialScaleQuirk = r.settings.quirksModeEnabled ∧
      (r.fill p).wideViewportQuirk = true ∧
      (r.fill p).shrinksStandaloneImagesToFit = false ∧
      (r.fill p).shouldClearDocumentBackground = false ∧
      (r.fill p).viewportMetaEnabled = true ∧
      (r.textAutosizingEnabled = true → r.factor = .ofNat 1) := by
  refine ⟨Bridge.calls_populate hhost hsession hextension react p,
    Bridge.outcome_populate_served hhost hsession hextension react p,
    fun c s hfound => Bridge.fst_outcome_populateFor hhost hsession hextension react p hfound,
    fun r p => ⟨rfl, rfl, rfl, rfl, rfl, rfl, rfl, rfl, rfl, r.factor_of_autosizing⟩⟩

/-- During the call an application of its own changes the answers of its host, lets go of host and
session, and has the bridge fill in other preferences. -/
theorem meddled_population : ∃ (w : World Diary) (react : Reaction Diary), w.Reached Diary.note [] ∧
    (∀ c u, World.Evolves Diary.note (u.noted Diary.note (some c)) (react c u)) ∧
    (Bridge.populate ⟨3⟩ {}).calls react w = [.textZoom ⟨1⟩ (.ofNat 1)] ∧
    (let v := (Bridge.populate ⟨3⟩ {}).outcome react w
     v.1.imagesEnabled = false ∧ v.1.loadsImagesAutomatically = true ∧ v.1.passwordEchoEnabled = true ∧
      v.2.isAlive (⟨2⟩ : HostRef).object = false ∧ v.2.isAlive (⟨1⟩ : SessionRef).object = false ∧
      (v.2.hosts ⟨2⟩).passwordEchoEnabled = false) := by
  let deeds : List Deed :=
    [.makeContext {} none, .makeSession { id := ⟨7⟩ },
      .makeCustomHost { loadsImagesAutomatically := false, passwordEchoEnabled := false }
        { passwordEchoEnabled := some true, textAutosizingEnabled := some true },
      .makeBridge ⟨0⟩ ⟨1⟩ ⟨2⟩]
  let meddling : List Deed :=
    [.customize ⟨2⟩ { imagesEnabled := false } { passwordEchoEnabled := some false },
      .populate ⟨3⟩ { imagesEnabled := false }, .drop ⟨.host, 2⟩, .drop ⟨.session, 1⟩]
  let w : World Diary := World.after Diary.note deeds { embedder := [] }
  let react : Reaction Diary := fun c u => World.after Diary.note meddling (u.noted Diary.note (some c))
  have hw : w.Reached Diary.note [] := World.evolves_after Diary.note deeds (.still _)
  have hreact : ∀ c u, World.Evolves Diary.note (u.noted Diary.note (some c)) (react c u) :=
    fun c u => World.evolves_after Diary.note meddling (.still _)
  obtain ⟨hcalls, houtcome, _, hfill⟩ := population_is_a_snapshot (w := w) (b := ⟨3⟩) (by decide +kernel)
    (by decide +kernel) (by decide +kernel) react {}
  refine ⟨w, react, hw, hreact, ?_, ?_⟩
  · rw [hcalls, (hfill (w.particulars ⟨3⟩) {}).2.2.2.2.2.2.2.2.2 (by decide +kernel)]
    rfl
  · obtain ⟨hcrossed, hback, _⟩ := hfill (w.particulars ⟨3⟩) {}
    rw [houtcome]
    refine ⟨hcrossed.trans ?_, hback.trans ?_, ?_, ?_, ?_, ?_⟩ <;> decide +kernel

end SettingsRelay
