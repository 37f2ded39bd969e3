import SettingsRelay.Proofs.Registry
import SettingsRelay.Proofs.Scene

/-!
# The mirror

An engine under watch shows what its host has, however the host is edited after everything was carried once: the
page scale and the text zoom that were given last, the record of the view host in all but its font scale factor,
the user agent if there is one, the marks of the navigation entries, and whether form data are saved. Each
update through a channel does to the engine what it does to the image, and each edit goes through the channel of
what it changes.
-/

namespace SettingsRelay

namespace Scene

variable {e : Scene} {shares : List Share} {s : Settings} {i : Image} {w : World Watch}

/-- While the host has the settings `s`, an operation leaves the scene set and turns the image of
the engine. -/
def Turns (e : Scene) (s : Settings) (op : Op Watch Unit) (turn : Image → Image) : Prop :=
  ∀ {shares i w}, e.Holds shares s i w →
    e.Holds shares s (turn i) (op.outcome (Watch.answer e.context e.session) w).2

namespace Turns

theorem bind {op next : Op Watch Unit} {f g : Image → Image} (hop : e.Turns s op f)
    (hnext : e.Turns s next g) : e.Turns s (do op; next) fun i => g (f i) :=
  fun hw => hnext (hop hw)

theorem withHost {body : HostRef → Op Watch Unit} {f : Image → Image} (hbody : e.Turns s (body e.host) f) :
    e.Turns s (Bridge.withHost e.bridge body) f := by
  intro shares i w hw
  rw [Bridge.outcome_withHost _ body hw.host_alive, hw.bridge]
  exact .release hw.lives (.inr (.inr rfl)) (hbody (hw.acquire _))

theorem withSession {body : SessionRef → Op Watch Unit} {f : Image → Image}
    (hbody : e.Turns s (body e.session) f) : e.Turns s (Bridge.withSession e.bridge body) f := by
  intro shares i w hw
  rw [Bridge.outcome_withSession _ body hw.session_alive, hw.bridge]
  exact .release hw.lives (.inr (.inl rfl)) (hbody (hw.acquire _))

/-! ### The parts -/

theorem pushPageScale : e.Turns s (Bridge.pushPageScale e.bridge e.host) (Image.withPageScale s) := by
  intro shares i w hw
  rw [Bridge.outcome_pushPageScale _ e.host hw.extension?, hw.host]
  exact (hw.consulted e.host).note_pageScale _

theorem pushPreferences : e.Turns s (Bridge.pushPreferences e.bridge) (Image.withPreferences e.switches s) := by
  intro shares i w hw
  have hreceiver : w.receiver (w.bridges e.bridge).session = e.receiver := by
    rw [hw.bridge]
    exact hw.receiver
  rw [Bridge.outcome_pushPreferences _ hw.session_alive (by rw [hreceiver]; exact hw.extension)
    (by rw [hreceiver]; exact hw.viewHost), hreceiver, hw.bridge]
  exact .release hw.lives (.inr (.inl rfl)) (hw.acquire _).answer_preferencesChanged

theorem overrideUserAgent (agent : String) :
    e.Turns s (Session.overrideUserAgent e.receiver agent) fun i => { i with userAgent := some agent } := by
  intro shares i w hw
  have hchanged := hw.changeSession (f := fun session => { session with userAgent := some agent })
    fun _ => ⟨rfl, rfl, rfl, rfl, rfl⟩
  have hnoted := hchanged.note (.userAgent e.receiver agent)
  have himage := e.image_changeSession w fun session => { session with userAgent := some agent }
  rw [← hw.image]
  exact hnoted.withImage himage

theorem markEntry (index : Nat) (overriding : Bool) :
    e.Turns s (Session.markEntry e.receiver index overriding) fun i =>
      { i with entries := i.entries.set index overriding } := by
  intro shares i w hw
  have hchanged := hw.changeSession
    (f := fun session => { session with entries := session.entries.set index overriding })
    fun _ => ⟨rfl, rfl, rfl, rfl, rfl⟩
  have hnoted := hchanged.note (.entry e.receiver index overriding)
  have himage := e.image_changeSession w fun session =>
    { session with entries := session.entries.set index overriding }
  rw [← hw.image]
  exact hnoted.withImage himage

theorem markEntries (overriding : Bool) (indices : List Nat) :
    e.Turns s (Session.markEntries e.receiver overriding indices) fun i =>
      { i with entries := indices.foldl (fun l index => l.set index overriding) i.entries } := by
  induction indices with
  | nil => exact fun hw => hw
  | cons index rest ih => exact bind (markEntry index overriding) ih

theorem pushFormData : e.Turns s (Bridge.pushFormData e.bridge e.host) (Image.withFormData s) := by
  intro shares i w hw
  have hclient : (w.sessions (w.bridges e.bridge).session).client = some e.client := by
    rw [hw.bridge]
    exact hw.client
  have hread := hw.consulted e.host
  rw [Bridge.outcome_pushFormData _ e.host hw.session_alive hclient, hw.host]
  refine hread.elsewhere rfl rfl rfl rfl rfl ?_
  rw [← hread.image]
  simp [Scene.image, World.changeClient, Image.withFormData]
  rfl

theorem markAll (overriding : Bool) :
    e.Turns s (do
      let count := ((← get).sessions e.receiver).entries.length
      Session.markEntries e.receiver overriding (List.range count))
      fun i => { i with entries := List.replicate i.entries.length overriding } := by
  intro shares i w hw
  have hentries : (w.sessions e.receiver).entries = i.entries := by
    rw [← hw.image]
    rfl
  have hmarked := markEntries overriding (List.range i.entries.length) hw
  dsimp only at hmarked
  rw [Image.foldl_set_range] at hmarked
  rw [Op.outcome_get_bind, hentries]
  exact hmarked

theorem pushUserAgent : e.Turns s (Bridge.pushUserAgent e.bridge e.host) (Image.withUserAgent s) := by
  refine withSession fun {shares i w} hw => ?_
  have hread := hw.consulted e.host
  have hagent : (Host.memory s (some e.bridge)).userAgent = s.userAgent := rfl
  rw [Op.outcome_get_bind, Op.outcome_bind, Op.outcome_readHost, hw.host, hw.receiver, hagent]
  cases h : s.userAgent with
  | none =>
    have hmarked := markAll false hread
    refine hmarked.withImage ?_
    rw [Image.withUserAgent, h]
    rfl
  | some agent =>
    have hmarked := markAll true (overrideUserAgent agent hread)
    refine hmarked.withImage ?_
    rw [Image.withUserAgent, h]
    rfl

theorem updateAcceptLanguages : e.Turns s (Bridge.updateAcceptLanguages e.bridge) id := by
  refine withHost fun {shares i w} hw => ?_
  cases hservice : (w.contexts (w.bridges e.bridge).context).service with
  | none =>
    rw [Bridge.outcome_pushAcceptLanguages_none _ e.host hservice]
    exact hw
  | some p =>
    rw [Bridge.outcome_pushAcceptLanguages _ e.host hservice]
    refine .release_service hw.lives ?_
    have hread := (hw.acquire p.object).consulted e.host
    exact hread.elsewhere rfl rfl rfl rfl rfl hread.image

theorem updatePreferences :
    e.Turns s (Bridge.updatePreferences e.bridge) (Image.withPreferences e.switches s) := by
  intro shares i w hw
  rw [Bridge.updatePreferences, Bridge.ifHosted, Op.outcome_get_bind, Op.outcome_get_bind, if_pos hw.host_alive]
  exact pushPreferences hw

theorem updateEverything :
    e.Turns s (Bridge.updateEverything e.bridge) fun i => i.refreshed e.switches s .everything :=
  withHost (pushPageScale.bind (pushPreferences.bind (pushUserAgent.bind pushFormData)))

theorem update (channel : Channel) :
    e.Turns s (Bridge.update channel e.bridge) fun i => i.refreshed e.switches s channel := by
  cases channel with
  | preferences => exact updatePreferences
  | userAgent => exact withHost pushUserAgent
  | pageScale => exact withHost pushPageScale
  | formData => exact withHost pushFormData
  | acceptLanguages => exact updateAcceptLanguages
  | everything => exact updateEverything

end Turns

/-! ## Edits -/

namespace Holds

theorem update (hw : e.Holds shares s i w) (channel : Channel) (f : Settings → Settings) :
    e.Holds shares (f s) (i.refreshed e.switches (f s) channel)
      ((Host.update e.host channel f).outcome (Watch.answer e.context e.session) w).2 := by
  have hattached : (w.hosts e.host).attached = some e.bridge := by
    rw [hw.host]
    rfl
  have hcarried := Turns.update channel
    (((hw.stored f).leased ⟨.hostAttached e.host, false⟩).acquire e.bridge.object)
  rw [Host.outcome_update _ channel f hattached (hw.alive (.inl rfl)), Op.outcome_bind,
    release_bridge hw.lives hcarried]
  exact withdraw hw.lives hcarried

theorem performAll {n : Nat} (hw : e.Holds shares s i w) (hi : i.Mirrors e.switches n s) (edits : List Edit) :
    ∃ j : Image, j.Mirrors e.switches n (Edit.applyAll edits s) ∧ e.Holds shares (Edit.applyAll edits s) j
      ((Edit.performAll e.host edits).outcome (Watch.answer e.context e.session) w).2 := by
  induction edits generalizing s i w with
  | nil => exact ⟨i, hi, hw⟩
  | cons edit rest ih =>
    -- an edit that is not taken changes neither the settings nor the world
    have hperform := edit.outcome_perform (Watch.answer e.context e.session) w e.host
    rw [Edit.performAll, Op.outcome_bind, hperform, Edit.applyAll, List.foldl_cons, Edit.apply]
    split
    · exact ih (hw.update edit.channel edit.store) (hi.edit edit)
    · exact ih hw hi

end Holds

end Scene

/-- Once everything has been carried, and whichever edits follow, the engine shows the values of the host. -/
theorem engine_mirrors_host {note : Notes Watch} {start : Watch} {w : World Watch}
    (hreached : w.Reached note start)
    {c : ContextRef} {s : SessionRef} {h : HostRef} {b : BridgeRef} {k : ClientRef} {values : Settings}
    (hbridge : w.bridges b = ⟨c, (w.sessions s).id, s, h⟩)
    (hnewest : w.newest? c (w.sessions s).id = some b)
    (hattached : w.hosts h = .memory values (some b))
    (hbridgeAlive : w.isAlive b.object = true) (hsession : w.isAlive s.object = true)
    (hhost : w.isAlive h.object = true)
    (hextension : (w.sessions (w.receiver s)).hasExtension = true)
    (hviewHost : (w.sessions (w.receiver s)).hasViewHost = true)
    (hclient : (w.sessions s).client = some k) (edits : List Edit) :
    let v := ((do Bridge.updateEverything b; Edit.performAll h edits).outcome (Watch.answer c s) w).2
    let values := Edit.applyAll edits values
    v.hosts h = .memory values (some b) ∧
    Watch.lastPageScale (w.receiver s) v.embedder.calls =
      some (initialPageScale values.initialPageScalePercent values.dipScale) ∧
    Watch.lastTextZoom (w.receiver s) v.embedder.calls =
      some (TextZoom.ofPercent values.textSizePercent values.textAutosizingEnabled).factor ∧
    v.embedder.record =
      { ({} : Preferences).populated (v.hosts h) (w.contexts c).switches with
        fontScaleFactor := v.embedder.record.fontScaleFactor } ∧
    (v.sessions (w.receiver s)).entries =
      List.replicate (w.sessions (w.receiver s)).entries.length values.userAgent.isSome ∧
    (∀ agent, values.userAgent = some agent → (v.sessions (w.receiver s)).userAgent = some agent) ∧
    (v.clients k).saveFormData = values.saveFormData := by
  intro v values'
  have hregistered := World.Registered.of_reached hreached
  let e : Scene := ⟨c, s, h, b, w.receiver s, k, (w.contexts c).switches⟩
  have hlives : e.Lives w.shares := by
    rintro o (rfl | rfl | rfl)
    · exact World.isAlive_iff.1 hbridgeAlive
    · exact World.isAlive_iff.1 hsession
    · exact World.isAlive_iff.1 hhost
  have hentered : (w.contexts c).entered? (w.sessions s).id = some b := by
    rw [hregistered.entered, hnewest]
    exact World.living?_of_alive hbridgeAlive
  have hw : e.Holds w.shares values (e.image w) w :=
    ⟨rfl, hlives, hbridge, hentered, rfl, hattached, rfl, hextension, hviewHost, hclient, rfl⟩
  obtain ⟨j, hmirrors, hv⟩ :=
    (Scene.Turns.updateEverything hw).performAll (Image.mirrors_everything rfl) edits
  have hvhost : v.hosts h = .memory values' (some b) := hv.host
  have himage : e.image v = j := hv.image
  subst himage
  refine ⟨hvhost, hmirrors.pageScale, hmirrors.textZoom, ?_, hmirrors.entries, hmirrors.userAgent,
    hmirrors.saveFormData⟩
  obtain ⟨p, hp⟩ := hmirrors.record
  have hrecord : v.embedder.record = p.populated (.memory values' none) (w.contexts c).switches := hp
  rw [hvhost, hrecord]
  rfl

/-- A host is given larger text, an autosizing layout and a user agent, in vain a text zoom below zero,
and no saving of form data. All of it shows. -/
theorem edited_host_shows : ∃ w : World Watch, w.Reached (fun _ u => u.embedder) {} ∧
    (let edits := [.set (.textZoom 150), .set (.layoutAlgorithm .textAutosizing),
      .set (.userAgent (some "relay")), .set (.textZoom (-5)), .set (.saveFormData false)]
     let v := ((do Bridge.updateEverything ⟨4⟩; Edit.performAll ⟨3⟩ edits).outcome (Watch.answer ⟨0⟩ ⟨2⟩) w).2
     (v.sessions ⟨2⟩).entries = [true, true] ∧ (v.sessions ⟨2⟩).userAgent = some "relay" ∧
     Watch.lastTextZoom ⟨2⟩ v.embedder.calls = some (.ofNat 1) ∧
     v.embedder.record.forceEnableZoom = true ∧ (v.clients ⟨1⟩).saveFormData = false) := by
  let deeds : List Deed :=
    [.makeContext {} none, .makeClient none,
      .makeSession { id := ⟨7⟩, entries := [false, false], client := some ⟨1⟩ }, .makeHost {},
      .makeBridge ⟨0⟩ ⟨2⟩ ⟨3⟩, .attach ⟨3⟩ ⟨4⟩]
  let w : World Watch := World.after (fun _ u => u.embedder) deeds { embedder := {} }
  have hw : w.Reached (fun _ u => u.embedder) {} := World.evolves_after _ deeds (.still _)
  have hbridge : w.bridges ⟨4⟩ = ⟨⟨0⟩, (w.sessions ⟨2⟩).id, ⟨2⟩, ⟨3⟩⟩ := by rfl
  have hnewest : w.newest? ⟨0⟩ (w.sessions ⟨2⟩).id = some ⟨4⟩ := by decide +kernel
  have hattached : w.hosts ⟨3⟩ = .memory {} (some ⟨4⟩) := by rfl
  have hbridgeAlive : w.isAlive (⟨4⟩ : BridgeRef).object = true := by decide +kernel
  have hsession : w.isAlive (⟨2⟩ : SessionRef).object = true := by decide +kernel
  have hhost : w.isAlive (⟨3⟩ : HostRef).object = true := by decide +kernel
  have hreceiver : w.receiver ⟨2⟩ = ⟨2⟩ := by decide +kernel
  have hextension : (w.sessions (w.receiver ⟨2⟩)).hasExtension = true := by decide +kernel
  have hviewHost : (w.sessions (w.receiver ⟨2⟩)).hasViewHost = true := by decide +kernel
  have hclient : (w.sessions ⟨2⟩).client = some ⟨1⟩ := by decide +kernel
  have hcount : (w.sessions ⟨2⟩).entries.length = 2 := by decide +kernel
  clear_value w
  obtain ⟨hvalues, _, hzoom, hrecord, hentries, hagent, hsave⟩ := engine_mirrors_host hw hbridge hnewest
    hattached hbridgeAlive hsession hhost hextension hviewHost hclient
    [.set (.textZoom 150), .set (.layoutAlgorithm .textAutosizing), .set (.userAgent (some "relay")),
      .set (.textZoom (-5)), .set (.saveFormData false)]
  rw [hreceiver] at hzoom hentries hagent
  rw [hcount] at hentries
  refine ⟨w, hw, hentries.trans (by decide +kernel), hagent "relay" (by decide +kernel),
    hzoom.trans (by decide +kernel), ?_, hsave.trans (by decide +kernel)⟩
  rw [hrecord, hvalues]
  change (Host.textZoom (.memory (Edit.applyAll _ {}) (some ⟨4⟩))).forceEnableZoom = true
  decide +kernel

end SettingsRelay
