import SettingsRelay.Proofs.Nested
import SettingsRelay.Proofs.Scene

/-!
# The last write wins

A host under watch is edited, and edited again in whatever calls that leads to, to any depth. Replacing
all settings stores them at once and carries them in stages with calls between, and edits made in these
calls carry their own. No stage carries what was read before a call: the page scale and the saving of form
data are each read right before they are given away, so that in the end both are those of the host.
-/

namespace SettingsRelay

def Watch.notes : Notes Watch := fun call w =>
  match call with
  | some c => (note c w).embedder
  | none => w.embedder

namespace Ties

variable {t : Ties} {k : ClientRef} {w v u : World Watch}

/-! ## What others leave alone -/

/-- The objects are tied: the host, which is in memory, has the bridge attached that is for it and for the session,
and the session has the extension and the client `k`. The embedder keeps all three. -/
structure Bound (t : Ties) (k : ClientRef) (w : World Watch) : Prop where
  attached : ∃ s, w.hosts t.host = .memory s (some t.bridge)
  host : (w.bridges t.bridge).host = t.host
  session : (w.bridges t.bridge).session = t.session
  receiver : w.receiver t.session = t.receiver
  extension : (w.sessions t.receiver).hasExtension = true
  client : (w.sessions t.session).client = some k
  kept : ∀ o, o = t.host.object ∨ o = t.bridge.object ∨ o = t.session.object → ⟨.embedder, o⟩ ∈ w.shares

/-- Whoever leads from one world to the other neither edits the host nor unties the objects, and gives the
session no page scale and the client no word on saving form data. -/
structure Spares (t : Ties) (k : ClientRef) (w v : World Watch) : Prop where
  host : v.hosts t.host = w.hosts t.host
  bridge : v.bridges t.bridge = w.bridges t.bridge
  receiver : v.receiver t.session = w.receiver t.session
  extension : (v.sessions t.receiver).hasExtension = (w.sessions t.receiver).hasExtension
  client : (v.sessions t.session).client = (w.sessions t.session).client
  scale : Watch.lastPageScale t.receiver v.embedder.calls = Watch.lastPageScale t.receiver w.embedder.calls
  saves : (v.clients k).saveFormData = (w.clients k).saveFormData
  kept : ∀ o, ⟨.embedder, o⟩ ∈ w.shares →
    o = t.host.object ∨ o = t.bridge.object ∨ o = t.session.object → ⟨.embedder, o⟩ ∈ v.shares

namespace Spares

theorem of_elsewhere (hhosts : v.hosts = w.hosts) (hbridges : v.bridges = w.bridges)
    (hsessions : v.sessions = w.sessions) (hclients : v.clients = w.clients)
    (hembedder : v.embedder = w.embedder)
    (hshares : ∀ o, ⟨.embedder, o⟩ ∈ w.shares → ⟨.embedder, o⟩ ∈ v.shares) : Spares t k w v where
  host := by rw [hhosts]
  bridge := by rw [hbridges]
  receiver := by rw [World.receiver, hsessions, World.receiver]
  extension := by rw [hsessions]
  client := by rw [hsessions]
  scale := by rw [hembedder]
  saves := by rw [hclients]
  kept o hs _ := hshares o hs

theorem leased (w : World Watch) (l : Lease) : Spares t k w (w.leased l) :=
  of_elsewhere rfl rfl rfl rfl rfl fun _ hs => hs

theorem consulted (w : World Watch) (h : HostRef) : Spares t k w (w.consulted h) := by
  unfold World.consulted
  split
  · exact leased w _
  · exact of_elsewhere rfl rfl rfl rfl rfl fun _ hs => hs

theorem acquire (w : World Watch) (o : Object) : Spares t k w (w.acquire .call o) :=
  of_elsewhere rfl rfl rfl rfl rfl fun _ hs => List.mem_cons_of_mem _ hs

theorem withdraw (w : World Watch) (o : Object) : Spares t k w (w.withdraw .call o) :=
  of_elsewhere rfl rfl rfl rfl rfl fun _ hs => (List.mem_erase_of_ne (by simp)).2 hs

theorem letGo (w : World Watch) (o : Object) : Spares t k w (w.releaseQuietly .call o) := by
  have hsheds := World.sheds_releaseQuietly w .call o
  refine of_elsewhere ?_ ?_ ?_ ?_ ?_ fun _ hs => hsheds.kept_of_holder hs (by simp) (by simp) <;> rw [hsheds.same]

theorem changeSession (w : World Watch) (s : SessionRef) {f : Session → Session}
    (hf : ∀ session, (f session).behind = session.behind ∧ (f session).client = session.client ∧
      (f session).hasExtension = session.hasExtension) : Spares t k w (w.changeSession s f) := by
  have hsame : ∀ {α : Type} (g : Session → α), (∀ session, g (f session) = g session) → ∀ r,
      g ((w.changeSession s f).sessions r) = g (w.sessions r) := by
    intro α g hg r
    by_cases hr : r = s
    · subst hr
      exact (congrArg g (replaceAt_self _ _ _)).trans (hg _)
    · exact congrArg g (replaceAt_of_ne hr)
  refine ⟨rfl, rfl, ?_, hsame _ (fun session => (hf session).2.2) _, hsame _ (fun session => (hf session).2.1) _,
    rfl, rfl, fun _ hs _ => hs⟩
  rw [World.receiver, hsame (·.behind) (fun session => (hf session).1), World.receiver]

theorem note {c : Call} (hc : ∀ s scale, c ≠ .pageScale s scale) (w : World Watch) :
    Spares t k w (Watch.note c w) where
  host := rfl
  bridge := rfl
  receiver := rfl
  extension := rfl
  client := rfl
  scale := by
    cases c with
    | pageScale s scale => exact absurd rfl (hc s scale)
    | _ => rfl
  saves := rfl
  kept _ hs _ := hs

end Spares

namespace Bound

theorem alive (hw : t.Bound k w) {o : Object}
    (ho : o = t.host.object ∨ o = t.bridge.object ∨ o = t.session.object) : w.isAlive o = true :=
  World.isAlive_iff.2 ⟨.embedder, hw.kept o ho⟩

theorem host_alive (hw : t.Bound k w) : w.isAlive (w.bridges t.bridge).host.object = true := by
  rw [hw.host]
  exact hw.alive (.inl rfl)

theorem session_alive (hw : t.Bound k w) : w.isAlive (w.bridges t.bridge).session.object = true := by
  rw [hw.session]
  exact hw.alive (.inr (.inr rfl))

theorem extension? (hw : t.Bound k w) : Bridge.extension? w t.bridge = some t.receiver := by
  rw [Bridge.extension?, hw.session_alive, hw.session, hw.receiver, hw.extension]
  rfl

theorem of_spares (hw : t.Bound k w) (h : Spares t k w v) : t.Bound k v where
  attached := by
    rw [h.host]
    exact hw.attached
  host := by rw [h.bridge, hw.host]
  session := by rw [h.bridge, hw.session]
  receiver := h.receiver.trans hw.receiver
  extension := h.extension.trans hw.extension
  client := h.client.trans hw.client
  kept o ho := h.kept o (hw.kept o ho) ho

theorem note (hw : t.Bound k w) (c : Call) : t.Bound k (Watch.note c w) :=
  ⟨hw.attached, hw.host, hw.session, hw.receiver, hw.extension, hw.client, hw.kept⟩

theorem changeClient (hw : t.Bound k w) (c : ClientRef) (f : Client → Client) : t.Bound k (w.changeClient c f) :=
  ⟨hw.attached, hw.host, hw.session, hw.receiver, hw.extension, hw.client, hw.kept⟩

theorem stored (hw : t.Bound k w) (f : Settings → Settings) : t.Bound k (w.stored t.host f) where
  attached := by
    obtain ⟨s, hs⟩ := hw.attached
    exact ⟨f s, by rw [World.hosts_stored, hs]; rfl⟩
  host := hw.host
  session := hw.session
  receiver := hw.receiver
  extension := hw.extension
  client := hw.client
  kept := hw.kept

end Bound

/-! ## What is in step -/

structure Scaled (t : Ties) (k : ClientRef) (w : World Watch) : Prop where
  bound : t.Bound k w
  scale : Watch.lastPageScale t.receiver w.embedder.calls =
    some (initialPageScale (w.hosts t.host).initialPageScalePercent (w.hosts t.host).dipScale)

structure Saved (t : Ties) (k : ClientRef) (w : World Watch) : Prop where
  bound : t.Bound k w
  saves : (w.clients k).saveFormData = (w.hosts t.host).saveFormData

/-- What holds between tied objects as long as they are spared. -/
structure Calm (t : Ties) (k : ClientRef) (I : World Watch → Prop) : Prop where
  bound : ∀ {w}, I w → t.Bound k w
  spared : ∀ {w v}, Spares t k w v → I w → I v

theorem calm_bound : t.Calm k (t.Bound k) := ⟨id, fun h hw => hw.of_spares h⟩

theorem calm_scaled : t.Calm k (t.Scaled k) where
  bound hw := hw.bound
  spared h hw := by
    refine ⟨hw.bound.of_spares h, ?_⟩
    rw [h.scale, h.host]
    exact hw.scale

theorem calm_saved : t.Calm k (t.Saved k) where
  bound hw := hw.bound
  spared h hw := by
    refine ⟨hw.bound.of_spares h, ?_⟩
    rw [h.saves, h.host]
    exact hw.saves

/-! ## What updates do -/

/-- With these reactions to its calls an operation leads from worlds in which `I` holds to worlds in which
`J` holds. -/
def Brings (react : Reaction Watch) (I : World Watch → Prop) (op : Op Watch Unit) (J : World Watch → Prop) : Prop :=
  ∀ ⦃w⦄, I w → J (op.outcome react w).2

/-- What holds once a call is written down holds when it has been answered. -/
def Answered (react : Reaction Watch) (I : World Watch → Prop) : Prop :=
  ∀ c w, I (Watch.note c w) → I (react c w)

namespace Brings

variable {react : Reaction Watch} {I J K : World Watch → Prop}

theorem bind {op next : Op Watch Unit} (hop : Brings react I op J) (hnext : Brings react J next K) :
    Brings react I (do op; next) K := fun _ hw => hnext (hop hw)

theorem withHost (hI : t.Calm k I) (hJ : t.Calm k J) {body : HostRef → Op Watch Unit}
    (hbody : Brings react I (body t.host) J) : Brings react I (Bridge.withHost t.bridge body) J := by
  intro w hw
  have hbound := hI.bound hw
  have hdone := hbody (hI.spared (.acquire w t.host.object) hw)
  rw [Bridge.outcome_withHost react body hbound.host_alive, hbound.host]
  exact hJ.spared (.letGo _ t.host.object) hdone

theorem withSession (hI : t.Calm k I) (hJ : t.Calm k J) {body : SessionRef → Op Watch Unit}
    (hbody : Brings react I (body t.session) J) : Brings react I (Bridge.withSession t.bridge body) J := by
  intro w hw
  have hbound := hI.bound hw
  have hdone := hbody (hI.spared (.acquire w t.session.object) hw)
  rw [Bridge.outcome_withSession react body hbound.session_alive, hbound.session]
  exact hJ.spared (.letGo _ t.session.object) hdone

section Calm

variable (hI : t.Calm k I) (hreact : Answered react I)

include hI hreact

/-! ### What carries neither a page scale nor the saving of form data -/

theorem call {c : Call} (hc : ∀ s scale, c ≠ .pageScale s scale) : Brings react I (Op.call c) I :=
  fun w hw => hreact c w (hI.spared (.note hc w) hw)

theorem pushPreferences : Brings react I (Bridge.pushPreferences t.bridge) I := by
  refine withSession hI hI fun w hw => ?_
  rw [Op.outcome_get_bind]
  dsimp only
  rw [Op.outcome_ite]
  split
  · exact call hI hreact (by simp) hw
  · exact hw

theorem overrideUserAgent (s : SessionRef) (agent : String) : Brings react I (Session.overrideUserAgent s agent) I :=
  fun w hw => call hI hreact (by simp) (hI.spared (.changeSession w s fun _ => ⟨rfl, rfl, rfl⟩) hw)

theorem markEntries (s : SessionRef) (overriding : Bool) (indices : List Nat) :
    Brings react I (Session.markEntries s overriding indices) I := by
  induction indices with
  | nil => exact fun _ hw => hw
  | cons index rest ih =>
    have hmark : Brings react I (Session.markEntry s index overriding) I := fun w hw =>
      call hI hreact (by simp) (hI.spared (.changeSession w s fun _ => ⟨rfl, rfl, rfl⟩) hw)
    exact hmark.bind ih

theorem pushUserAgent : Brings react I (Bridge.pushUserAgent t.bridge t.host) I := by
  have hmark : ∀ receiver overriding, Brings react I (do
      let count := ((← get).sessions receiver).entries.length
      Session.markEntries receiver overriding (List.range count)) I :=
    fun receiver overriding w hw => markEntries hI hreact receiver overriding _ hw
  refine withSession hI hI fun w hw => ?_
  rw [Op.outcome_get_bind, Op.outcome_bind, Op.outcome_readHost]
  have hread := hI.spared (.consulted w t.host) hw
  cases (w.hosts t.host).userAgent with
  | none => exact hmark _ _ hread
  | some agent => exact (overrideUserAgent hI hreact _ agent).bind (hmark _ _) hread

theorem pushAcceptLanguages : Brings react I (Bridge.pushAcceptLanguages t.bridge t.host) I := by
  intro w hw
  cases hservice : (w.contexts (w.bridges t.bridge).context).service with
  | none =>
    rw [Bridge.outcome_pushAcceptLanguages_none _ t.host hservice]
    exact hw
  | some p =>
    have hread := hI.spared (.consulted _ t.host) (hI.spared (.acquire w p.object) hw)
    have hput : I (((w.acquire .call p.object).consulted t.host).changeService p
        (·.put acceptLanguagesKey (w.hosts t.host).acceptLanguages)) :=
      hI.spared (w := (w.acquire .call p.object).consulted t.host)
        (.of_elsewhere rfl rfl rfl rfl rfl fun _ hs => hs) hread
    rw [Bridge.outcome_pushAcceptLanguages _ t.host hservice]
    exact hI.spared (.letGo _ p.object) (call hI hreact (by simp) hput)

end Calm

/-! ### The page scale -/

theorem pushPageScale (hI : t.Calm k I)
    (hgiven : ∀ w, I w → J (react (.pageScale t.receiver
      (initialPageScale (w.hosts t.host).initialPageScalePercent (w.hosts t.host).dipScale))
        (w.consulted t.host))) : Brings react I (Bridge.pushPageScale t.bridge t.host) J := by
  intro w hw
  rw [Bridge.outcome_pushPageScale react t.host (hI.bound hw).extension?]
  exact hgiven w hw

/-- The scale that is given is the one of the host, and what is done in that call keeps it so. -/
theorem pushPageScale_scaled (hreact : Answered react (t.Scaled k)) :
    Brings react (t.Bound k) (Bridge.pushPageScale t.bridge t.host) (t.Scaled k) := by
  refine pushPageScale calm_bound fun w hw => hreact _ _ ⟨(hw.of_spares (.consulted w _)).note _, ?_⟩
  simp [Watch.note, Watch.lastPageScale, World.hosts_consulted]

theorem pushPageScale_bound (hreact : Answered react (t.Bound k)) :
    Brings react (t.Bound k) (Bridge.pushPageScale t.bridge t.host) (t.Bound k) :=
  pushPageScale calm_bound fun w hw => hreact _ _ ((hw.of_spares (.consulted w _)).note _)

theorem pushPageScale_saved (hreact : Answered react (t.Saved k)) :
    Brings react (t.Saved k) (Bridge.pushPageScale t.bridge t.host) (t.Saved k) := by
  refine pushPageScale calm_saved fun w hw => hreact _ _ ?_
  have hread := calm_saved.spared (.consulted w t.host) hw
  exact ⟨hread.bound.note _, hread.saves⟩

/-! ### The saving of form data -/

theorem pushFormData (hI : t.Calm k I)
    (hgiven : ∀ w, I w → J ((w.consulted t.host).changeClient k fun client =>
      { client with saveFormData := (w.hosts t.host).saveFormData })) :
    Brings react I (Bridge.pushFormData t.bridge t.host) J := by
  intro w hw
  have hbound := hI.bound hw
  rw [Bridge.outcome_pushFormData react t.host hbound.session_alive (k := k) (by rw [hbound.session, hbound.client])]
  exact hgiven w hw

theorem pushFormData_saved : Brings react (t.Bound k) (Bridge.pushFormData t.bridge t.host) (t.Saved k) := by
  refine pushFormData calm_bound fun w hw => ⟨(hw.of_spares (.consulted w _)).changeClient _ _, ?_⟩
  simp [World.changeClient, World.hosts_consulted]

theorem pushFormData_bound : Brings react (t.Bound k) (Bridge.pushFormData t.bridge t.host) (t.Bound k) :=
  fun _ hw => (pushFormData_saved hw).bound

theorem pushFormData_scaled : Brings react (t.Scaled k) (Bridge.pushFormData t.bridge t.host) (t.Scaled k) := by
  refine pushFormData calm_scaled fun w hw => ?_
  have hread := calm_scaled.spared (.consulted w t.host) hw
  exact ⟨hread.bound.changeClient _ _, hread.scale⟩

/-! ### Updates -/

theorem updateEverything (hI : t.Calm k I) (hreact : Answered react I)
    (hscale : Brings react J (Bridge.pushPageScale t.bridge t.host) I)
    (hsave : Brings react I (Bridge.pushFormData t.bridge t.host) K) (hJ : t.Calm k J) (hK : t.Calm k K) :
    Brings react J (Bridge.updateEverything t.bridge) K :=
  withHost hJ hK (hscale.bind ((pushPreferences hI hreact).bind ((pushUserAgent hI hreact).bind hsave)))

/-- An update keeps what its two pushes keep and the others do not speak of. -/
theorem update (hI : t.Calm k I) (hreact : Answered react I)
    (hscale : Brings react I (Bridge.pushPageScale t.bridge t.host) I)
    (hsave : Brings react I (Bridge.pushFormData t.bridge t.host) I) (channel : Channel) :
    Brings react I (Bridge.update channel t.bridge) I := by
  have hpreferences := pushPreferences hI hreact
  have hagent := pushUserAgent hI hreact
  cases channel with
  | preferences =>
    intro w hw
    have halive := (hI.bound hw).host_alive
    rw [Bridge.update, Bridge.updatePreferences, Bridge.ifHosted, Op.outcome_get_bind, Op.outcome_get_bind,
      if_pos halive]
    exact hpreferences hw
  | userAgent => exact withHost hI hI hagent
  | pageScale => exact withHost hI hI hscale
  | formData => exact withHost hI hI hsave
  | acceptLanguages => exact withHost hI hI (pushAcceptLanguages hI hreact)
  | everything => exact updateEverything hI hreact hscale hsave hI hI

theorem update_bound (hreact : Answered react (t.Bound k)) (channel : Channel) :
    Brings react (t.Bound k) (Bridge.update channel t.bridge) (t.Bound k) :=
  update calm_bound hreact (pushPageScale_bound hreact) pushFormData_bound channel

theorem update_scaled (hreact : Answered react (t.Scaled k)) {channel : Channel}
    (hchannel : channel = .pageScale ∨ channel = .everything) :
    Brings react (t.Bound k) (Bridge.update channel t.bridge) (t.Scaled k) := by
  have hscale := pushPageScale_scaled hreact
  rcases hchannel with rfl | rfl
  · exact withHost calm_bound calm_scaled hscale
  · exact updateEverything calm_scaled hreact hscale pushFormData_scaled calm_bound calm_scaled

theorem update_saved (hreact : Answered react (t.Bound k)) {channel : Channel}
    (hchannel : channel = .formData ∨ channel = .everything) :
    Brings react (t.Bound k) (Bridge.update channel t.bridge) (t.Saved k) := by
  rcases hchannel with rfl | rfl
  · exact withHost calm_bound calm_saved pushFormData_saved
  · exact updateEverything calm_bound hreact (pushPageScale_bound hreact) pushFormData_saved calm_bound calm_saved

end Brings

/-! ## What edits do -/

section Edits

variable {react : Reaction Watch} {I J : World Watch → Prop}

theorem outcome_update_of_brings (hI : t.Calm k I) (hJ : t.Calm k J) {channel : Channel} {f : Settings → Settings}
    (hupdate : Brings react I (Bridge.update channel t.bridge) J) (hw : t.Bound k w)
    (hstored : I (w.stored t.host f)) : J ((Host.update t.host channel f).outcome react w).2 := by
  obtain ⟨s, hs⟩ := hw.attached
  have hattached : (w.hosts t.host).attached = some t.bridge := by
    rw [hs]
    rfl
  have hheld := hI.spared (.acquire _ t.bridge.object) (hI.spared (.leased _ ⟨.hostAttached t.host, false⟩) hstored)
  have hreleased := hJ.spared (.withdraw _ t.bridge.object) (hupdate hheld)
  rw [Host.outcome_update react channel f hattached (hw.alive (.inr (.inl rfl))), Op.outcome_bind,
    Op.outcome_release_bridge react ((hJ.bound hreleased).alive (.inr (.inl rfl)))]
  exact hreleased

theorem Scaled.stored (hw : t.Scaled k w) {f : Settings → Settings}
    (hf : ∀ s, (f s).initialPageScalePercent = s.initialPageScalePercent ∧ (f s).dipScale = s.dipScale) :
    t.Scaled k (w.stored t.host f) := by
  refine ⟨hw.bound.stored f, ?_⟩
  obtain ⟨s, hs⟩ := hw.bound.attached
  have hscale : Watch.lastPageScale t.receiver w.embedder.calls =
      some (initialPageScale s.initialPageScalePercent s.dipScale) := by
    rw [hw.scale, hs]
    rfl
  rw [← (hf s).1, ← (hf s).2] at hscale
  rw [World.hosts_stored, hs]
  exact hscale

theorem Saved.stored (hw : t.Saved k w) {f : Settings → Settings}
    (hf : ∀ s, (f s).saveFormData = s.saveFormData) : t.Saved k (w.stored t.host f) := by
  refine ⟨hw.bound.stored f, ?_⟩
  obtain ⟨s, hs⟩ := hw.bound.attached
  have hsaves : (w.clients k).saveFormData = s.saveFormData := by
    rw [hw.saves, hs]
    rfl
  rw [← hf s] at hsaves
  rw [World.hosts_stored, hs]
  exact hsaves

end Edits

end Ties

namespace Edit

/-- An edit of what page scales are made of has them carried. -/
theorem carries_scale (edit : Edit) : (edit.channel = .pageScale ∨ edit.channel = .everything) ∨
    ∀ s, (edit.store s).initialPageScalePercent = s.initialPageScalePercent ∧
      (edit.store s).dipScale = s.dipScale := by
  cases edit with
  | replace settings => exact .inl (.inr rfl)
  | set change =>
    cases change with
    | initialPageScale percent => exact .inl (.inl rfl)
    | _ => exact .inr fun _ => ⟨rfl, rfl⟩

theorem carries_saving (edit : Edit) : (edit.channel = .formData ∨ edit.channel = .everything) ∨
    ∀ s, (edit.store s).saveFormData = s.saveFormData := by
  cases edit with
  | replace settings => exact .inl (.inr rfl)
  | set change =>
    cases change with
    | saveFormData enabled => exact .inl (.inl rfl)
    | _ => exact .inr fun _ => rfl

end Edit

namespace Ties

variable {t : Ties} {k : ClientRef} {w v : World Watch} {react : Reaction Watch}

/-- What a property of tied objects has to survive of an edit: that it is stored, and that it is carried. -/
theorem outcome_perform_of_brings {I J : World Watch → Prop} (hI : t.Calm k I) (hJ : t.Calm k J) (edit : Edit)
    (hignored : J w) (hstored : I (w.stored t.host edit.store))
    (hupdate : Brings react I (Bridge.update edit.channel t.bridge) J) :
    J ((edit.perform t.host).outcome react w).2 := by
  rw [Edit.outcome_perform]
  split
  · exact outcome_update_of_brings hI hJ hupdate (hJ.bound hignored) hstored
  · exact hignored

theorem Bound.perform (hw : t.Bound k w) (hreact : Answered react (t.Bound k)) (edit : Edit) :
    t.Bound k ((edit.perform t.host).outcome react w).2 :=
  outcome_perform_of_brings calm_bound calm_bound edit hw (hw.stored _) (Brings.update_bound hreact _)

theorem Scaled.perform (hw : t.Scaled k w) (hreact : Answered react (t.Scaled k)) (edit : Edit) :
    t.Scaled k ((edit.perform t.host).outcome react w).2 := by
  rcases edit.carries_scale with hchannel | hsame
  · exact outcome_perform_of_brings calm_bound calm_scaled edit hw (hw.bound.stored _)
      (Brings.update_scaled hreact hchannel)
  · have hscale : Brings react (t.Scaled k) (Bridge.pushPageScale t.bridge t.host) (t.Scaled k) :=
      fun _ hu => Brings.pushPageScale_scaled hreact hu.bound
    exact outcome_perform_of_brings calm_scaled calm_scaled edit hw (hw.stored hsame)
      (Brings.update calm_scaled hreact hscale Brings.pushFormData_scaled _)

/-- While all settings are carried the client may be behind, since form data come last. It is enough that
the calls before keep the objects tied. -/
theorem Saved.perform (hw : t.Saved k w) (hbound : Answered react (t.Bound k)) (hreact : Answered react (t.Saved k))
    (edit : Edit) : t.Saved k ((edit.perform t.host).outcome react w).2 := by
  rcases edit.carries_saving with hchannel | hsame
  · exact outcome_perform_of_brings calm_bound calm_saved edit hw (hw.bound.stored _)
      (Brings.update_saved hbound hchannel)
  · have hsave : Brings react (t.Saved k) (Bridge.pushFormData t.bridge t.host) (t.Saved k) :=
      fun _ hu => Brings.pushFormData_saved hu.bound
    exact outcome_perform_of_brings calm_saved calm_saved edit hw (hw.stored hsame)
      (Brings.update calm_saved hreact (Brings.pushPageScale_saved hreact) hsave _)

/-! ## Edits inside edits -/

/-- A host is edited, one edit after the other. Each call is written down when it comes in, and before it returns
there may be more edits. Besides anything may happen that spares the objects. -/
inductive Edited (t : Ties) (k : ClientRef) : World Watch → World Watch → Prop where
  | still (w : World Watch) : Edited t k w w
  | edit {w v : World Watch} (before : Edited t k w v) (edit : Edit) (react : Reaction Watch)
      (during : ∀ c u, Edited t k (Watch.note c u) (react c u)) :
      Edited t k w ((edit.perform t.host).outcome react v).2
  | aside {w v u : World Watch} (before : Edited t k w v) (spares : Spares t k v u) : Edited t k w u

/-- Each of the three is kept for itself, so what is behind in the middle of one edit does not matter to
edits inside it. -/
theorem Edited.keeps (h : t.Edited k w v) :
    (t.Bound k w → t.Bound k v) ∧ (t.Scaled k w → t.Scaled k v) ∧ (t.Saved k w → t.Saved k v) := by
  induction h with
  | still w => exact ⟨id, id, id⟩
  | edit before edit react during ih ihDuring =>
    have hbound : Answered react (t.Bound k) := fun c u => (ihDuring c u).1
    have hscaled : Answered react (t.Scaled k) := fun c u => (ihDuring c u).2.1
    have hsaved : Answered react (t.Saved k) := fun c u => (ihDuring c u).2.2
    exact ⟨fun hw => (ih.1 hw).perform hbound edit, fun hw => (ih.2.1 hw).perform hscaled edit,
      fun hw => (ih.2.2 hw).perform hbound hsaved edit⟩
  | aside before spares ih =>
    exact ⟨fun hw => (ih.1 hw).of_spares spares, fun hw => calm_scaled.spared spares (ih.2.1 hw),
      fun hw => calm_saved.spared spares (ih.2.2 hw)⟩

/-- However a host is edited, and edited again in the calls that this leads to, the session has its page scale and the
client its word on form data once the outermost edit returns. -/
theorem last_write_wins (hw : t.Bound k w)
    (hscale : Watch.lastPageScale t.receiver w.embedder.calls =
      some (initialPageScale (w.hosts t.host).initialPageScalePercent (w.hosts t.host).dipScale))
    (hsaves : (w.clients k).saveFormData = (w.hosts t.host).saveFormData) (h : t.Edited k w v) :
    Watch.lastPageScale t.receiver v.embedder.calls =
      some (initialPageScale (v.hosts t.host).initialPageScalePercent (v.hosts t.host).dipScale) ∧
    (v.clients k).saveFormData = (v.hosts t.host).saveFormData := by
  obtain ⟨_, hscaled, hsaved⟩ := h.keeps
  exact ⟨(hscaled ⟨hw, hscale⟩).scale, (hsaved ⟨hw, hsaves⟩).saves⟩

/-- While all settings are replaced, the page scale is set again in the call for it, and saving form data is
turned off in the call for the preferences. -/
theorem interrupted_replacement_settles : ∃ w v : World Watch, w.Reached Watch.notes {} ∧
    Edited ⟨⟨3⟩, ⟨4⟩, ⟨2⟩, ⟨2⟩⟩ ⟨1⟩ w v ∧
    Watch.lastPageScale ⟨2⟩ w.embedder.calls = some noInitialPageScale ∧ (w.clients ⟨1⟩).saveFormData = true ∧
    (v.hosts ⟨3⟩).settings.textSizePercent = 150 ∧
    Watch.lastPageScale ⟨2⟩ v.embedder.calls = some (.ofNat 2) ∧ (v.clients ⟨1⟩).saveFormData = false := by
  let deeds : List Deed :=
    [.makeContext {} none, .makeClient none, .makeSession { id := ⟨7⟩, client := some ⟨1⟩ }, .makeHost {},
      .makeBridge ⟨0⟩ ⟨2⟩ ⟨3⟩, .attach ⟨3⟩ ⟨4⟩, .act ⟨4⟩ .updateEverything]
  let w : World Watch := World.after Watch.notes deeds { embedder := {} }
  let edited : Edit → World Watch → World Watch := fun edit u =>
    ((edit.perform ⟨3⟩).outcome (fun c u => Watch.note c u) u).2
  let react : Reaction Watch := fun c u =>
    match c with
    | .pageScale _ _ => edited (.set (.initialPageScale (.ofNat 200))) (Watch.note c u)
    | .preferencesChanged _ => edited (.set (.saveFormData false)) (Watch.note c u)
    | _ => Watch.note c u
  let replacement : Edit := .replace { initialPageScalePercent := .ofNat 50, textSizePercent := 150 }
  let v : World Watch := ((replacement.perform ⟨3⟩).outcome react w).2
  have hreached : w.Reached Watch.notes {} := World.evolves_after Watch.notes deeds (.still _)
  have hduring : ∀ c u, Edited ⟨⟨3⟩, ⟨4⟩, ⟨2⟩, ⟨2⟩⟩ ⟨1⟩ (Watch.note c u) (react c u) := by
    intro c u
    cases c with
    | pageScale s scale => exact .edit (.still _) _ _ fun _ _ => .still _
    | preferencesChanged s => exact .edit (.still _) _ _ fun _ _ => .still _
    | _ => exact .still _
  have hedited : Edited ⟨⟨3⟩, ⟨4⟩, ⟨2⟩, ⟨2⟩⟩ ⟨1⟩ w v := .edit (.still w) replacement react hduring
  have hbound : Bound ⟨⟨3⟩, ⟨4⟩, ⟨2⟩, ⟨2⟩⟩ ⟨1⟩ w := by
    refine ⟨⟨{}, by rfl⟩, by rfl, by rfl, by rfl, by decide +kernel, by rfl, ?_⟩
    rintro o (rfl | rfl | rfl) <;> decide +kernel
  have hscale : Watch.lastPageScale ⟨2⟩ w.embedder.calls = some noInitialPageScale := by decide +kernel
  have hsaves : (w.clients ⟨1⟩).saveFormData = true := by decide +kernel
  obtain ⟨hlast, hlastSaves⟩ :=
    last_write_wins hbound (hscale.trans (by decide +kernel)) (hsaves.trans (by decide +kernel)) hedited
  exact ⟨w, v, hreached, hedited, hscale, hsaves, by decide +kernel, hlast.trans (by decide +kernel),
    hlastSaves.trans (by decide +kernel)⟩

end Ties

end SettingsRelay
