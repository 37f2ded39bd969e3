import SettingsRelay.Proofs.Lifecycle

/-!
# What updates do

The outcome of each update of a bridge whose host and session are alive, in terms of the calls that
it makes and of what these are reacted to.
-/

namespace SettingsRelay.Bridge

variable {σ : Type} (react : Reaction σ) {w : World σ} {b : BridgeRef}

theorem outcome_withHost (body : HostRef → Op σ Unit)
    (hhost : w.isAlive (w.bridges b).host.object = true) :
    (withHost b body).outcome react w =
      ((), ((body (w.bridges b).host).outcome react (w.acquire .call (w.bridges b).host.object)).2.releaseQuietly
        .call (w.bridges b).host.object) := by
  rw [withHost, Op.outcome_get_bind]
  dsimp only
  rw [Op.outcome_get_bind, if_pos hhost]
  exact Op.outcome_keeping react w _ _

theorem outcome_withSession (body : SessionRef → Op σ Unit)
    (hsession : w.isAlive (w.bridges b).session.object = true) :
    (withSession b body).outcome react w =
      ((), ((body (w.bridges b).session).outcome react
        (w.acquire .call (w.bridges b).session.object)).2.releaseQuietly .call (w.bridges b).session.object) := by
  rw [withSession, Op.outcome_get_bind]
  dsimp only
  rw [Op.outcome_get_bind, if_pos hsession]
  exact Op.outcome_keeping react w _ _

theorem outcome_pushPageScale (h : HostRef) {s : SessionRef} (hextension : extension? w b = some s) :
    (pushPageScale b h).outcome react w =
      ((), react (.pageScale s
        (SettingsRelay.initialPageScale (w.hosts h).initialPageScalePercent (w.hosts h).dipScale))
          (w.consulted h)) := by
  rw [pushPageScale, Op.outcome_get_bind, hextension]
  dsimp only
  rw [Op.outcome_bind, Op.outcome_readHost]
  rfl

theorem outcome_pushPreferences (hsession : w.isAlive (w.bridges b).session.object = true)
    (hextension : (w.sessions (w.receiver (w.bridges b).session)).hasExtension = true)
    (hviewHost : (w.sessions (w.receiver (w.bridges b).session)).hasViewHost = true) :
    (pushPreferences b).outcome react w =
      ((), (react (.preferencesChanged (w.receiver (w.bridges b).session))
        (w.acquire .call (w.bridges b).session.object)).releaseQuietly .call (w.bridges b).session.object) := by
  have hboth : ((w.sessions (w.receiver (w.bridges b).session)).hasExtension &&
      (w.sessions (w.receiver (w.bridges b).session)).hasViewHost) = true := by
    rw [hextension, hviewHost, Bool.and_self]
  rw [pushPreferences, outcome_withSession react _ hsession, Op.outcome_get_bind]
  dsimp only
  change ((), ((ite ((_ && _) = true) _ _ : Op σ Unit).outcome react _).2.releaseQuietly .call _) = _
  rw [if_pos (by exact hboth)]
  rfl

theorem outcome_pushFormData (h : HostRef) {k : ClientRef}
    (hsession : w.isAlive (w.bridges b).session.object = true)
    (hclient : (w.sessions (w.bridges b).session).client = some k) :
    (pushFormData b h).outcome react w =
      ((), (w.consulted h).changeClient k fun client =>
        { client with saveFormData := (w.hosts h).saveFormData }) := by
  rw [pushFormData, Op.outcome_get_bind]
  dsimp only
  rw [if_pos hsession, hclient]
  dsimp only
  rw [Op.outcome_bind, Op.outcome_readHost]
  rfl

theorem outcome_pushAcceptLanguages (h : HostRef) {p : ServiceRef}
    (hservice : (w.contexts (w.bridges b).context).service = some p) :
    (pushAcceptLanguages b h).outcome react w =
      ((), (react (.stored p acceptLanguagesKey (w.hosts h).acceptLanguages)
        (((w.acquire .call p.object).consulted h).changeService p
          (·.put acceptLanguagesKey (w.hosts h).acceptLanguages))).releaseQuietly .call p.object) := by
  rw [pushAcceptLanguages, Op.outcome_get_bind, hservice]
  dsimp only
  rw [Op.outcome_keeping, Op.outcome_bind, Op.outcome_readHost]
  rfl

/-- The world in which a bridge has stored a host's languages and is about to call the service. -/
def storing (w : World σ) (h : HostRef) (p : ServiceRef) : World σ :=
  (((w.acquire .call h.object).acquire .call p.object).consulted h).changeService p
    (·.put acceptLanguagesKey (w.hosts h).acceptLanguages)

theorem get?_storing (w : World σ) (h : HostRef) (p : ServiceRef) :
    ((storing w h p).services p).get? acceptLanguagesKey = some (w.hosts h).acceptLanguages := by
  simp [storing, World.changeService]

theorem outcome_updateAcceptLanguages {p : ServiceRef} (hhost : w.isAlive (w.bridges b).host.object = true)
    (hservice : (w.contexts (w.bridges b).context).service = some p) :
    (updateAcceptLanguages b).outcome react w =
      ((), ((react (.stored p acceptLanguagesKey (w.hosts (w.bridges b).host).acceptLanguages)
        (storing w (w.bridges b).host p)).releaseQuietly .call p.object).releaseQuietly
          .call (w.bridges b).host.object) := by
  have hkept : ((w.acquire .call (w.bridges b).host.object).contexts
      ((w.acquire .call (w.bridges b).host.object).bridges b).context).service = some p := hservice
  rw [updateAcceptLanguages, outcome_withHost react _ hhost, outcome_pushAcceptLanguages react _ hkept]
  rfl

theorem outcome_pushAcceptLanguages_none (h : HostRef)
    (hservice : (w.contexts (w.bridges b).context).service = none) :
    (pushAcceptLanguages b h).outcome react w = ((), w) := by
  rw [pushAcceptLanguages, Op.outcome_get_bind, hservice]
  rfl

theorem outcome_populate (p : Preferences) {s : SessionRef}
    (hhost : w.isAlive (w.bridges b).host.object = true)
    (hextension : extension? (w.acquire .call (w.bridges b).host.object) b = some s) :
    (populate b p).outcome react w =
      (p.populated (w.hosts (w.bridges b).host) (w.contexts (w.bridges b).context).switches,
        (react (.textZoom s (w.hosts (w.bridges b).host).textZoom.factor)
          ((w.acquire .call (w.bridges b).host.object).consulted (w.bridges b).host)).releaseQuietly
            .call (w.bridges b).host.object) := by
  rw [populate, Op.outcome_get_bind]
  dsimp only
  rw [Op.outcome_get_bind, if_pos hhost, Op.outcome_keeping, Op.outcome_get_bind, hextension]
  dsimp only
  rw [Op.outcome_bind, Op.outcome_readHost, Op.outcome_get_bind]
  have hswitches : (((w.acquire .call (w.bridges b).host.object).consulted (w.bridges b).host).contexts
      (w.bridges b).context).switches = (w.contexts (w.bridges b).context).switches := by
    unfold World.consulted
    split <;> rfl
  dsimp only
  rw [hswitches]
  rfl

end SettingsRelay.Bridge
