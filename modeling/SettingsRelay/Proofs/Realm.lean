import SettingsRelay.Proofs.Application

/-!
# Realms

What an operation through a bridge may touch is the session that the bridge is for, the client of that session, the
service of the bridge's context, and the host that is changed, if it is one. From one world to another one that is
confined to such a realm whatever else there is stays as it is, and nobody's life begins or ends. Other sessions,
which may share client, service, context and host, are left alone.
-/

namespace SettingsRelay

variable {σ : Type}

/-- What an operation through a bridge may touch. -/
structure Realm where
  /-- The session that the bridge is for. -/
  owner : SessionRef
  /-- The session that receives what is asked of it. -/
  session : SessionRef
  client : Option ClientRef
  service : Option ServiceRef
  /-- The host whose settings are changed. -/
  host : Option HostRef

def Realm.Admits (r : Realm) : Call → Prop
  | .userAgent s _ | .entry s _ _ | .preferencesChanged s | .textZoom s _ | .pageScale s _ | .resetScroll s =>
    s = r.session
  | .stored p key _ => r.service = some p ∧ key = acceptLanguagesKey
  | .bridgeGone .. | .showPopup .. | .hidePopup .. | .accept .. => False

namespace World

def realm (w : World σ) (b : BridgeRef) (host : Option HostRef) : Realm where
  owner := (w.bridges b).session
  session := w.receiver (w.bridges b).session
  client := (w.sessions (w.bridges b).session).client
  service := (w.contexts (w.bridges b).context).service
  host := host

/-- Nothing has changed but what belongs to a realm: user agent and entries of a session, a client's word on form
data, the languages of a service, the settings of a host. The realm admits every call that was noted. -/
structure Confined (r : Realm) (w v : World Diary) : Prop where
  diary : ∃ pages : Diary, v.embedder = pages ++ w.embedder ∧ ∀ page ∈ pages, ∀ c ∈ page.1, r.Admits c
  sessions : ∀ s, s ≠ r.session → v.sessions s = w.sessions s
  session : ∀ s, ∃ userAgent entries, v.sessions s = { w.sessions s with userAgent, entries }
  clients : ∀ c, r.client ≠ some c → v.clients c = w.clients c
  client : ∀ c, ∃ saveFormData, v.clients c = { w.clients c with saveFormData }
  services : ∀ p, r.service ≠ some p → v.services p = w.services p
  service : ∀ p key, key ≠ acceptLanguagesKey → (v.services p).get? key = (w.services p).get? key
  hosts : ∀ h, r.host ≠ some h → v.hosts h = w.hosts h
  host : ∀ h, ∃ s, v.hosts h = (w.hosts h).withSettings s
  rest : v = { w with
    services := v.services
    clients := v.clients
    sessions := v.sessions
    hosts := v.hosts
    conflicts := v.conflicts
    embedder := v.embedder }

end World

open World (Confined)

namespace World.Confined

variable {r : Realm} {w v u : World Diary} {o : Object}

/-! ## What is confined -/

theorem of_conflicts (r : Realm) (h : v = { w with conflicts := v.conflicts }) : Confined r w v := by
  rw [h]
  exact
    { diary := ⟨[], rfl, List.forall_mem_nil _⟩
      sessions := fun _ _ => rfl
      session := fun s => ⟨(w.sessions s).userAgent, (w.sessions s).entries, rfl⟩
      clients := fun _ _ => rfl
      client := fun c => ⟨(w.clients c).saveFormData, rfl⟩
      services := fun _ _ => rfl
      service := fun _ _ _ => rfl
      hosts := fun _ _ => rfl
      host := fun h => ⟨(w.hosts h).settings, (w.hosts h).withSettings_self.symm⟩
      rest := rfl }

theorem refl (r : Realm) (w : World Diary) : Confined r w w := .of_conflicts r rfl

theorem trans (hwv : Confined r w v) (hvu : Confined r v u) : Confined r w u where
  diary := by
    obtain ⟨early, hearly, hadmitted⟩ := hwv.diary
    obtain ⟨late, hlate, hlater⟩ := hvu.diary
    refine ⟨late ++ early, by rw [hlate, hearly, List.append_assoc], fun page hpage => ?_⟩
    rcases List.mem_append.1 hpage with hpage | hpage
    · exact hlater page hpage
    · exact hadmitted page hpage
  sessions s hs := (hvu.sessions s hs).trans (hwv.sessions s hs)
  session s := by
    obtain ⟨_, _, hv⟩ := hwv.session s
    obtain ⟨userAgent, entries, hu⟩ := hvu.session s
    exact ⟨userAgent, entries, by rw [hu, hv]⟩
  clients c hc := (hvu.clients c hc).trans (hwv.clients c hc)
  client c := by
    obtain ⟨_, hv⟩ := hwv.client c
    obtain ⟨saveFormData, hu⟩ := hvu.client c
    exact ⟨saveFormData, by rw [hu, hv]⟩
  services p hp := (hvu.services p hp).trans (hwv.services p hp)
  service p key hkey := (hvu.service p key hkey).trans (hwv.service p key hkey)
  hosts h hh := (hvu.hosts h hh).trans (hwv.hosts h hh)
  host h := by
    obtain ⟨_, hv⟩ := hwv.host h
    obtain ⟨s, hu⟩ := hvu.host h
    exact ⟨s, by rw [hu, hv, Host.withSettings_withSettings]⟩
  rest := by
    have hrest := hvu.rest
    rw [hwv.rest] at hrest
    exact hrest

theorem noted {c : Option Call} (hc : ∀ x ∈ c, r.Admits x) : Confined r w (w.noted Diary.note c) :=
  { refl r w with
    diary := ⟨[(c, w.bare)], rfl, List.forall_mem_singleton.2 hc⟩
    rest := rfl }

theorem changeSession {f : Session → Session}
    (hf : ∀ x, ∃ userAgent entries, f x = { x with userAgent, entries }) :
    Confined r w (w.changeSession r.session f) :=
  { refl r w with
    sessions := fun _ hs => replaceAt_of_ne hs
    session := fun s => by
      by_cases hs : s = r.session
      · subst hs
        obtain ⟨userAgent, entries, hx⟩ := hf (w.sessions r.session)
        exact ⟨userAgent, entries, (replaceAt_self _ _ _).trans hx⟩
      · exact ⟨_, _, replaceAt_of_ne hs⟩
    rest := rfl }

theorem changeClient {c : ClientRef} (hc : r.client = some c) (saveFormData : Bool) :
    Confined r w (w.changeClient c fun client => { client with saveFormData }) :=
  { refl r w with
    clients := fun _ hk => replaceAt_of_ne fun heq => hk (heq ▸ hc)
    client := fun k => by
      by_cases hk : k = c
      · subst hk
        exact ⟨saveFormData, replaceAt_self _ _ _⟩
      · exact ⟨_, replaceAt_of_ne hk⟩
    rest := rfl }

theorem changeService {p : ServiceRef} (hp : r.service = some p) (value : String) :
    Confined r w (w.changeService p (·.put acceptLanguagesKey value)) :=
  { refl r w with
    services := fun _ hq => replaceAt_of_ne fun heq => hq (heq ▸ hp)
    service := fun q key hkey => by
      by_cases hq : q = p
      · subst hq
        have hput : (w.changeService q (·.put acceptLanguagesKey value)).services q =
            (w.services q).put acceptLanguagesKey value := replaceAt_self _ _ _
        rw [hput, Service.get?_put, if_neg hkey]
      · exact congrArg (Service.get? · key) (replaceAt_of_ne hq)
    rest := rfl }

theorem changeHost {h : HostRef} (hh : r.host = some h) (f : Host → Settings) :
    Confined r w (w.changeHost h fun host => host.withSettings (f host)) :=
  { refl r w with
    hosts := fun _ hk => replaceAt_of_ne fun heq => hk (heq ▸ hh)
    host := fun k => by
      by_cases hk : k = h
      · subst hk
        exact ⟨_, replaceAt_self _ _ _⟩
      · exact ⟨(w.hosts k).settings, (replaceAt_of_ne hk).trans (w.hosts k).withSettings_self.symm⟩
    rest := rfl }

/-! ## What is kept -/

section Kept

variable (h : Confined r w v)

include h

theorem contexts : v.contexts = w.contexts := by rw [h.rest]

theorem bridges : v.bridges = w.bridges := by rw [h.rest]

theorem made : v.made = w.made := by rw [h.rest]

theorem shares : v.shares = w.shares := by rw [h.rest]

theorem isAlive (o : Object) : v.isAlive o = w.isAlive o := isAlive_congr h.shares o

theorem id_eq (s : SessionRef) : (v.sessions s).id = (w.sessions s).id := by
  obtain ⟨_, _, hs⟩ := h.session s
  rw [hs]

theorem session_client (s : SessionRef) : (v.sessions s).client = (w.sessions s).client := by
  obtain ⟨_, _, hs⟩ := h.session s
  rw [hs]

theorem hasExtension (s : SessionRef) : (v.sessions s).hasExtension = (w.sessions s).hasExtension := by
  obtain ⟨_, _, hs⟩ := h.session s
  rw [hs]

theorem receiver (s : SessionRef) : v.receiver s = w.receiver s := by
  obtain ⟨_, _, hs⟩ := h.session s
  rw [World.receiver, hs, World.receiver]

theorem attached (k : HostRef) : (v.hosts k).attached = (w.hosts k).attached := by
  obtain ⟨s, hs⟩ := h.host k
  rw [hs, Host.attached_withSettings]

end Kept

/-! ## Shares that are returned -/

/-- What is kept while an operation runs is as alive when it is let go as it was before. -/
theorem frame (h : Confined r (w.acquire .call o) v) : Confined r w (v.withdraw .call o) :=
  { diary := h.diary
    sessions := h.sessions
    session := h.session
    clients := h.clients
    client := h.client
    services := h.services
    service := h.service
    hosts := h.hosts
    host := h.host
    rest := by
      have hback : v.shares.erase ⟨.call, o⟩ = w.shares := by
        rw [h.shares]
        exact List.erase_cons_head _ _
      rw [World.withdraw, hback]
      conv_lhs => rw [h.rest]
      rfl }

theorem isAlive_withdraw (h : Confined r (w.acquire .call o) v) (p : Object) :
    (v.withdraw .call o).isAlive p = w.isAlive p := h.frame.isAlive p

theorem letGo (h : Confined r (w.acquire .call o) v) (halive : w.isAlive o = true ∨ o.kind = .service) :
    Confined r w (v.releaseQuietly .call o) := by
  have hmem : (⟨.call, o⟩ : Share) ∈ v.shares := by
    rw [h.shares]
    exact List.mem_cons_self
  -- what lives on loses this share only, and a service keeps nothing that could be let go with it
  have hwithdraw : v.releaseQuietly .call o = v.withdraw .call o := by
    rcases halive with halive | hkind
    · have hacquired : v = (v.withdraw .call o).acquire .call o := by
        have hshares : v.shares = ⟨.call, o⟩ :: (v.withdraw .call o).shares := by
          rw [h.frame.shares, h.shares]
          rfl
        rw [World.acquire, ← hshares]
        rfl
      conv_lhs => rw [hacquired]
      exact releaseQuietly_acquire ((h.isAlive_withdraw o).trans halive)
    · obtain ⟨kind, n⟩ := o
      cases hkind
      exact releaseService_eq (r := ⟨n⟩) hmem
  rw [hwithdraw]
  exact h.frame

theorem release (h : Confined r (w.acquire .call o) v) (halive : w.isAlive o = true) (react : Reaction Diary) :
    Confined r w ((Op.release .call o).outcome react v).2 := by
  by_cases hkind : o.kind = .bridge
  · obtain ⟨kind, n⟩ := o
    cases hkind
    have hstays : (v.withdraw .call (⟨n⟩ : BridgeRef).object).isAlive (⟨n⟩ : BridgeRef).object = true :=
      (h.isAlive_withdraw _).trans halive
    have hrelease := Op.outcome_release_bridge react hstays
    exact congrArg Prod.snd hrelease ▸ h.frame
  · rw [Op.outcome_release_quiet react v .call hkind]
    exact h.letGo (.inl halive)

end World.Confined

/-! ## Where an operation starts -/

namespace World

/-- Sessions that are alive are told apart by their ids, a bridge that is entered for an id is for the session with
that id, and the session of a realm receives what is asked of its owner. -/
structure Orderly (r : Realm) (w : World σ) : Prop where
  distinct : ∀ s t : SessionRef, w.isAlive s.object = true → w.isAlive t.object = true →
    (w.sessions s).id = (w.sessions t).id → s = t
  entry : ∀ c id b, (w.contexts c).entered? id = some b → (w.sessions (w.bridges b).session).id = id
  receiver : w.receiver r.owner = r.session

namespace Orderly

variable {r : Realm}

theorem acquire {w : World σ} {o : Object} (h : w.Orderly r) (halive : w.isAlive o = true ∨ o.kind = .service) :
    (w.acquire .call o).Orderly r where
  distinct s t hs ht := by
    have hbefore : ∀ s : SessionRef, (w.acquire .call o).isAlive s.object = true → w.isAlive s.object = true := by
      intro s hs
      by_cases heq : o = s.object
      · rcases halive with halive | hkind
        · exact heq ▸ halive
        · rw [heq] at hkind
          cases hkind
      · exact (isAlive_acquire_of_ne heq).symm.trans hs
    exact h.distinct s t (hbefore s hs) (hbefore t ht)
  entry := h.entry
  receiver := h.receiver

theorem of_confined {w v : World Diary} (h : w.Orderly r) (hwv : Confined r w v) : v.Orderly r where
  distinct s t hs ht hid := by
    rw [hwv.isAlive] at hs ht
    rw [hwv.id_eq, hwv.id_eq] at hid
    exact h.distinct s t hs ht hid
  entry c id b hb := by
    rw [hwv.contexts] at hb
    rw [hwv.bridges, hwv.id_eq]
    exact h.entry c id b hb
  receiver := (hwv.receiver r.owner).trans h.receiver

end Orderly

structure Serves (r : Realm) (b : BridgeRef) (w : World σ) : Prop where
  session : w.receiver (w.bridges b).session = r.session
  client : ∀ c, (w.sessions (w.bridges b).session).client = some c → r.client = some c
  service : ∀ p, (w.contexts (w.bridges b).context).service = some p → r.service = some p

theorem serves_realm (w : World σ) (b : BridgeRef) (host : Option HostRef) : Serves (w.realm b host) b w :=
  ⟨rfl, fun _ => id, fun _ => id⟩

theorem Serves.of_same {r : Realm} {b : BridgeRef} {w v : World σ} (h : Serves r b w)
    (hsessions : v.sessions = w.sessions := by rfl) (hcontexts : v.contexts = w.contexts := by rfl)
    (hbridges : v.bridges = w.bridges := by rfl) : Serves r b v := by
  refine ⟨?_, ?_, ?_⟩
  · rw [World.receiver, hsessions, hbridges]
    exact h.session
  · rw [hsessions, hbridges]
    exact h.client
  · rw [hcontexts, hbridges]
    exact h.service

theorem Serves.of_confined {r : Realm} {b : BridgeRef} {w v : World Diary} (h : Serves r b w) (hwv : Confined r w v) :
    Serves r b v where
  session := by rw [hwv.receiver, hwv.bridges, h.session]
  client := by
    rw [hwv.session_client, hwv.bridges]
    exact h.client
  service := by
    rw [hwv.contexts, hwv.bridges]
    exact h.service

end World

end SettingsRelay
