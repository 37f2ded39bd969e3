import SettingsRelay.Proofs.Unaware

/-!
# Operations do not notice how often a host is kept

No operation tells how many calls keep a host, because none does anything with the shares in a host but
take one, give one back and look whether there is any. Each operation has one lemma for this, and operations
that use others cite theirs. Who is called meanwhile must not notice either.
-/

namespace SettingsRelay

variable {σ : Type} {α β : Type}

open World (Pinned Hidden Unaware)

section Unawareness

variable {h : HostRef} {react : Reaction σ} (hreact : react.IsUnaware h) {w : World σ} (hw : h.index < w.next)

include hreact

/-! ## What an engine does -/

theorem Session.unaware_overrideUserAgent (hw : h.index < w.next) (s : SessionRef) (agent : String) :
    Unaware h ((overrideUserAgent s agent).outcome react) w :=
  Op.unaware_bind hw (Op.unaware_modify (fun _ => rfl) (Nat.le_refl _)) fun _ _ hv => Op.unaware_call hreact hv _

theorem Session.unaware_markEntry (hw : h.index < w.next) (s : SessionRef) (index : Nat) (overriding : Bool) :
    Unaware h ((markEntry s index overriding).outcome react) w :=
  Op.unaware_bind hw (Op.unaware_modify (fun _ => rfl) (Nat.le_refl _)) fun _ _ hv => Op.unaware_call hreact hv _

theorem Session.unaware_markEntries (s : SessionRef) (overriding : Bool) (indices : List Nat) :
    ∀ w : World σ, h.index < w.next → Unaware h ((markEntries s overriding indices).outcome react) w := by
  induction indices with
  | nil => exact fun w _ => Op.unaware_pure ()
  | cons index rest ih =>
    exact fun w hw => Op.unaware_bind hw (unaware_markEntry hreact hw s index overriding) fun _ => ih

theorem Service.unaware_store (hw : h.index < w.next) (p : ServiceRef) (key value : String) :
    Unaware h ((store p key value).outcome react) w :=
  Op.unaware_bind hw (Op.unaware_modify (fun _ => rfl) (Nat.le_refl _)) fun _ _ hv => Op.unaware_call hreact hv _

/-! ## What a bridge does -/

namespace Bridge

variable (b : BridgeRef) (k : HostRef)

omit hreact in
theorem unaware_withHost {body : HostRef → Op σ Unit} (hw : h.index < w.next)
    (hbody : ∀ k v, h.index < v.next → Unaware h ((body k).outcome react) v) :
    Unaware h ((withHost b body).outcome react) w := by
  refine Op.unaware_get_bind (Op.unaware_get_bind ?_ fun hwv hn => ?_) fun hwv hn => ?_
  · split
    · next halive => exact Op.unaware_keeping (fun heq => heq ▸ halive) (hbody _ _ hw)
    · exact Op.unaware_pure ()
  · rw [hwv.isAlive hn]
  · rw [hwv.bridges]

omit hreact in
theorem unaware_ifHosted {body : Op σ Unit} (hbody : Unaware h (body.outcome react) w) :
    Unaware h ((ifHosted b body).outcome react) w := by
  refine Op.unaware_get_bind (Op.unaware_get_bind ?_ fun hwv hn => ?_) fun hwv hn => ?_
  · split
    · exact hbody
    · exact Op.unaware_pure ()
  · rw [hwv.bridges]
  · simp only [hwv.isAlive hn]

omit hreact in
theorem unaware_withSession {body : SessionRef → Op σ Unit} (hw : h.index < w.next)
    (hbody : ∀ s v, h.index < v.next → Unaware h ((body s).outcome react) v) :
    Unaware h ((withSession b body).outcome react) w := by
  refine Op.unaware_get_bind (Op.unaware_get_bind ?_ fun hwv hn => ?_) fun hwv hn => ?_
  · split
    · exact Op.unaware_keeping (by simp [Ref.object]) (hbody _ _ hw)
    · exact Op.unaware_pure ()
  · rw [hwv.isAlive hn]
  · rw [hwv.bridges]

omit hreact in
theorem extension?_pinned {n : Nat} {v : World σ} (hwv : Pinned h n w v) : extension? v b = extension? w b := by
  have halive := fun s : SessionRef => hwv.isAlive_of_ne (o := s.object) (by simp [Ref.object])
  unfold extension? World.receiver
  dsimp only
  rw [hwv.bridges, hwv.sessions, halive]

theorem unaware_pushPageScale (hw : h.index < w.next) : Unaware h ((pushPageScale b k).outcome react) w := by
  refine Op.unaware_get_bind ?_ fun hwv hn => by rw [extension?_pinned b hwv]
  split
  · exact Op.unaware_bind hw (Op.unaware_readHost k _) fun _ _ hv => Op.unaware_call hreact hv _
  · exact Op.unaware_pure ()

theorem unaware_pushPreferences (hw : h.index < w.next) : Unaware h ((pushPreferences b).outcome react) w := by
  refine unaware_withSession b hw fun s v hv => ?_
  refine Op.unaware_get_bind ?_ fun hwv hn => ?_
  · dsimp only
    split
    · exact Op.unaware_call hreact hv _
    · exact Op.unaware_pure ()
  · rw [hwv.same]
    rfl

theorem unaware_pushUserAgent (hw : h.index < w.next) : Unaware h ((pushUserAgent b k).outcome react) w := by
  refine unaware_withSession b hw fun s v hv => ?_
  have hmark : ∀ receiver overriding u, h.index < u.next → Unaware h ((do
      let count := ((← get).sessions receiver).entries.length
      Session.markEntries receiver overriding (List.range count) : Op σ Unit).outcome react) u := by
    intro receiver overriding u hu
    refine Op.unaware_get_bind (Session.unaware_markEntries hreact _ _ _ u hu) fun hwv hn => ?_
    rw [hwv.sessions]
  refine Op.unaware_get_bind ?_ fun hwv hn => by simp only [World.receiver, hwv.sessions]
  refine Op.unaware_bind hv (Op.unaware_readHost k _) fun agent u hu => ?_
  cases agent with
  | none => exact hmark _ _ u hu
  | some agent =>
    exact Op.unaware_bind hu (Session.unaware_overrideUserAgent hreact hu _ _) fun _ => hmark _ _

omit hreact in
theorem unaware_pushFormData (hw : h.index < w.next) : Unaware h ((pushFormData b k).outcome react) w := by
  refine Op.unaware_get_bind ?_ fun hwv hn => ?_
  · dsimp only
    split
    · split
      · exact Op.unaware_bind hw (Op.unaware_readHost k _) fun _ _ _ =>
          Op.unaware_modify (fun _ => rfl) (Nat.le_refl _)
      · exact Op.unaware_pure ()
    · exact Op.unaware_pure ()
  · simp only [hwv.bridges, hwv.sessions, hwv.isAlive hn]

theorem unaware_pushAcceptLanguages (hw : h.index < w.next) :
    Unaware h ((pushAcceptLanguages b k).outcome react) w := by
  refine Op.unaware_get_bind ?_ fun hwv hn => by simp only [hwv.bridges, hwv.contexts]
  split
  · refine Op.unaware_keeping (by simp [Ref.object]) ?_
    exact Op.unaware_bind hw (Op.unaware_readHost k _) fun _ _ hv => Service.unaware_store hreact hv _ _ _
  · exact Op.unaware_pure ()

theorem unaware_updatePreferences (hw : h.index < w.next) : Unaware h ((updatePreferences b).outcome react) w :=
  unaware_ifHosted b (unaware_pushPreferences hreact b hw)

theorem unaware_updateEverything (hw : h.index < w.next) : Unaware h ((updateEverything b).outcome react) w := by
  refine unaware_withHost b hw fun k v hv => ?_
  refine Op.unaware_bind hv (unaware_pushPageScale hreact b k hv) fun _ _ hv => ?_
  refine Op.unaware_bind hv (unaware_pushPreferences hreact b hv) fun _ _ hv => ?_
  exact Op.unaware_bind hv (unaware_pushUserAgent hreact b k hv) fun _ _ hv => unaware_pushFormData b k hv

theorem unaware_resetScroll (hw : h.index < w.next) : Unaware h ((resetScroll b).outcome react) w := by
  refine unaware_ifHosted b (Op.unaware_get_bind ?_ fun hwv hn => by rw [extension?_pinned b hwv])
  split
  · exact Op.unaware_call hreact hw _
  · exact Op.unaware_pure ()

theorem unaware_perform (action : BridgeAction) (hw : h.index < w.next) :
    Unaware h ((action.perform b).outcome react) w := by
  cases action with
  | updateEverything | renderViewCreated => exact unaware_updateEverything hreact b hw
  | updatePageScale => exact unaware_withHost b hw fun k _ => unaware_pushPageScale hreact b k
  | updatePreferences => exact unaware_updatePreferences hreact b hw
  | updateUserAgent => exact unaware_withHost b hw fun k _ => unaware_pushUserAgent hreact b k
  | updateFormData => exact unaware_withHost b hw fun k _ => unaware_pushFormData b k
  | updateAcceptLanguages => exact unaware_withHost b hw fun k _ => unaware_pushAcceptLanguages hreact b k
  | resetScroll => exact unaware_resetScroll hreact b hw

theorem unaware_update (channel : Channel) (hw : h.index < w.next) :
    Unaware h ((update channel b).outcome react) w := by
  cases channel with
  | preferences => exact unaware_perform hreact b .updatePreferences hw
  | userAgent => exact unaware_perform hreact b .updateUserAgent hw
  | pageScale => exact unaware_perform hreact b .updatePageScale hw
  | formData => exact unaware_perform hreact b .updateFormData hw
  | acceptLanguages => exact unaware_perform hreact b .updateAcceptLanguages hw
  | everything => exact unaware_perform hreact b .updateEverything hw

theorem unaware_populate (p : Preferences) (hw : h.index < w.next) :
    Unaware h ((populate b p).outcome react) w := by
  refine Op.unaware_get_bind (Op.unaware_get_bind ?_ fun hwv hn => ?_) fun hwv hn => ?_
  · split
    · next halive =>
      refine Op.unaware_keeping (fun heq => heq ▸ halive) ?_
      refine Op.unaware_get_bind ?_ fun hwv hn => by rw [extension?_pinned b hwv]
      split
      · refine Op.unaware_bind hw (Op.unaware_readHost _ _) fun host u hu => ?_
        refine Op.unaware_get_bind ?_ fun hwv hn => by rw [hwv.contexts]
        exact Op.unaware_bind hu (Op.unaware_call hreact hu _) fun _ _ _ => Op.unaware_pure _
      · exact Op.unaware_pure _
    · exact Op.unaware_pure _
  · rw [hwv.isAlive hn]
  · rw [hwv.bridges]

end Bridge

/-! ## The end of a bridge -/

omit hreact in
theorem World.Pinned.unregister {n : Nat} {v : World σ} (hwv : Pinned h n w v) (c : ContextRef) (id : SessionId) :
    Pinned h n (w.unregister c id) (v.unregister c id) := by
  unfold World.unregister
  rw [hwv.contexts]
  split
  · next b _ =>
    rw [hwv.isAlive_of_ne (by simp [Ref.object])]
    split
    · exact hwv
    · exact hwv.map (f := fun w => w.changeContext c (·.strike id)) fun _ => rfl
  · exact hwv

omit hreact in
theorem World.Pinned.detach {n : Nat} {v : World σ} (hwv : Pinned h n w v) (k : HostRef) (b : BridgeRef) :
    Pinned h n (w.detach k b) (v.detach k b) := by
  unfold World.detach
  rw [hwv.hosts]
  split
  · next a _ =>
    rw [hwv.isAlive_of_ne (by simp [Ref.object])]
    split
    · exact hwv
    · exact hwv.map (f := fun w => w.changeHost k (·.withAttached none)) fun _ => rfl
  · exact hwv

omit hreact in
theorem Registry.unaware_unregister (c : ContextRef) (id : SessionId) :
    Unaware h ((unregister c id : Op σ Unit).outcome react) w := by
  rw [funext fun v => outcome_unregister react v c id]
  have hshares : (w.unregister c id).shares = w.shares := by rw [World.unregister_eq]
  have hnext : (w.unregister c id).next = w.next := by rw [World.unregister_eq]
  exact ⟨hnext.ge, fun halive => (World.isAlive_congr hshares _).symm.trans halive, congrArg _ hshares,
    fun hwv _ => ⟨rfl, (hwv.unregister c id).leased _⟩⟩

theorem Host.unaware_bridgeGone (k : HostRef) (b : BridgeRef) (hw : h.index < w.next) :
    Unaware h ((bridgeGone k b).outcome react) w := by
  cases hmemory : (w.hosts k).isInMemory with
  | true =>
    have hdetach : Unaware h (fun v => ((), (v.detach k b).leased ⟨.hostAttached k, true⟩)) w := by
      have hshares : (w.detach k b).shares = w.shares := by
        unfold World.detach
        split
        · split <;> rfl
        · rfl
      have hnext : (w.detach k b).next = w.next := by
        unfold World.detach
        split
        · split <;> rfl
        · rfl
      exact ⟨hnext.ge, fun halive => (World.isAlive_congr hshares _).symm.trans halive, congrArg _ hshares,
        fun hwv _ => ⟨rfl, (hwv.detach k b).leased _⟩⟩
    exact hdetach.of_eq fun hwv => outcome_bridgeGone_memory react b (by rw [hwv.hosts, hmemory])
  | false =>
    have hcall := Op.unaware_call hreact hw (.bridgeGone k b (w.bridges b).sessionId)
    refine hcall.of_eq fun hwv => ?_
    rw [outcome_bridgeGone_custom react b (by rw [hwv.hosts, hmemory]), hwv.bridges]
    rfl

theorem Bridge.unaware_teardown (b : BridgeRef) (hw : h.index < w.next) :
    Unaware h ((teardown b).outcome react) w := by
  refine Op.unaware_get_bind ?_ fun hwv hn => by rw [hwv.bridges]
  refine Op.unaware_bind hw (Registry.unaware_unregister _ _) fun _ v hv => ?_
  refine Op.unaware_get_bind ?_ fun hwv hn => by rw [hwv.isAlive hn]
  have hcontext : ∀ u, Unaware h ((modify (·.releaseContext (.owner b.object) (w.bridges b).context) :
      Op σ Unit).outcome react) u := fun u =>
    Op.unaware_releaseQuietly (o := (w.bridges b).context.object) (by simp [pin])
  split
  · next halive =>
    refine Op.unaware_bind_at (Op.unaware_modify (fun _ => rfl) (Nat.le_refl _)) ?_
    refine Op.unaware_bind_at ?_ (hcontext _)
    exact Op.unaware_keeping (fun heq => heq ▸ halive) (Host.unaware_bridgeGone hreact _ _ hv)
  · exact Op.unaware_bind_at (Op.unaware_modify (fun _ => rfl) (Nat.le_refl _)) (hcontext _)

namespace Op

theorem unaware_release {holder : Holder} {o : Object} (hs : ⟨holder, o⟩ ≠ pin h) (hw : h.index < w.next) :
    Unaware h ((release holder o).outcome react) w := by
  unfold release
  split
  · next hkind =>
    refine unaware_get_bind ?_ fun hwv hn => if_congr (hwv.mem_iff hs) rfl rfl
    split
    · have hwithdraw : Unaware h ((modify (·.withdraw holder o) : Op σ Unit).outcome react) w :=
        ⟨Nat.le_refl _, World.isAlive_of_withdraw, World.count_withdraw hs,
          fun hwv _ => ⟨rfl, hwv.withdraw (.inl hs)⟩⟩
      refine unaware_bind hw hwithdraw fun _ v hv => ?_
      refine unaware_get_bind ?_ fun hwv hn => by rw [hwv.isAlive hn]
      split
      · exact Bridge.unaware_teardown hreact _ hv
      · exact unaware_pure ()
    · exact unaware_pure ()
  · exact unaware_releaseQuietly hs

/-- An object is kept while an operation runs, and torn down after it if it is a bridge that nobody else keeps. -/
theorem unaware_holding {o : Object} {body : Op σ α} (halive : w.isAlive o = true) (hw : h.index < w.next)
    (hbody : ∀ v, h.index < v.next → Unaware h (body.outcome react) v) :
    Unaware h ((holding o body).outcome react) w := by
  by_cases ho : o = h.object
  · have hkeeping : holding o body = keeping o body := by
      unfold holding keeping release
      rw [if_neg (by rw [ho]; simp [Ref.object])]
    rw [hkeeping]
    exact unaware_keeping (fun heq => heq ▸ halive) (hbody _ hw)
  · have hs : (⟨.call, o⟩ : Share) ≠ pin h := fun heq => ho (congrArg Share.object heq)
    refine unaware_bind hw (unaware_acquire hs fun heq => absurd heq ho) fun _ v hv => ?_
    refine unaware_bind hv (hbody v hv) fun x u hu => ?_
    exact unaware_bind hu (unaware_release hreact hs hu) fun _ _ _ => unaware_pure x

theorem unaware_use {o : Object} {body : Op σ Unit} (hw : h.index < w.next)
    (hbody : ∀ v, h.index < v.next → Unaware h (body.outcome react) v) :
    Unaware h ((use o body).outcome react) w := by
  refine unaware_get_bind ?_ fun hwv hn => by rw [hwv.isAlive hn]
  split
  · next halive => exact unaware_holding hreact halive hw hbody
  · exact unaware_pure ()

end Op

/-! ## Bridges that are looked up -/

omit hreact in
theorem Registry.unaware_find? (c : ContextRef) (id : SessionId) :
    Unaware h ((find? c id : Op σ _).outcome react) w :=
  Op.unaware_upgradeIn (by decide) (.registry c) (fun w => (w.contexts c).entered? id) (fun _ _ => rfl)
    fun hwv => by rw [hwv.contexts]

omit hreact in
theorem Registry.unaware_count (c : ContextRef) : Unaware h ((count c : Op σ _).outcome react) w := by
  refine Op.unaware_readCell fun {n v} hwv hn => ?_
  have halive : ∀ b : BridgeRef, v.isAlive b.object = w.isAlive b.object := fun b => hwv.isAlive hn b.object
  change size v c = size w c
  simp only [size, hwv.contexts, halive]

theorem Bridge.unaware_populateFor (c : ContextRef) (s : SessionRef) (p : Preferences) (hw : h.index < w.next) :
    Unaware h ((populateFor c s p).outcome react) w := by
  refine Op.unaware_get_bind ?_ fun hwv hn => by rw [hwv.sessions]
  refine Op.unaware_bind hw (Registry.unaware_find? c _) fun found v hv => ?_
  cases found with
  | none => exact Op.unaware_pure p
  | some b =>
    refine Op.unaware_bind hv (unaware_populate hreact b p hv) fun filled u hu => ?_
    have hs : (⟨.call, b.object⟩ : Share) ≠ pin h := by simp [pin, Ref.object]
    exact Op.unaware_bind hu (Op.unaware_release hreact hs hu) fun _ _ _ => Op.unaware_pure filled

/-! ## Making objects -/

section Making

omit hreact

theorem Service.unaware_create (hw : h.index < w.next) : Unaware h ((create : Op σ _).outcome react) w :=
  Op.unaware_create hw (Op.unaware_modify (fun _ => rfl) (Nat.le_refl _))

theorem Context.unaware_create (hw : h.index < w.next) (switches : Switches) (service : Option ServiceRef) :
    Unaware h ((create switches service : Op σ _).outcome react) w :=
  Op.unaware_create hw (Op.unaware_modify_then (Op.unaware_modify (fun _ => rfl) (Nat.le_refl _))
    (Op.unaware_acquire? (by decide) _ service))

theorem Client.unaware_create (hw : h.index < w.next) (service : Option ServiceRef) :
    Unaware h ((create service : Op σ _).outcome react) w :=
  Op.unaware_create hw (Op.unaware_modify_then (Op.unaware_modify (fun _ => rfl) (Nat.le_refl _))
    (Op.unaware_acquire? (by decide) _ service))

theorem Session.unaware_create (hw : h.index < w.next) (session : Session) :
    Unaware h ((create session : Op σ _).outcome react) w :=
  Op.unaware_create hw (Op.unaware_modify_then (Op.unaware_modify (fun _ => rfl) (Nat.le_refl _))
    (Op.unaware_acquire? (by decide) _ session.client))

theorem Host.unaware_create (hw : h.index < w.next) (settings : Settings) :
    Unaware h ((create settings : Op σ _).outcome react) w :=
  Op.unaware_create hw (Op.unaware_modify (fun _ => rfl) (Nat.le_refl _))

theorem Host.unaware_createCustom (hw : h.index < w.next) (settings : Settings) (overrides : Overrides) :
    Unaware h ((createCustom settings overrides : Op σ _).outcome react) w :=
  Op.unaware_create hw (Op.unaware_modify (fun _ => rfl) (Nat.le_refl _))

theorem View.unaware_create (hw : h.index < w.next) : Unaware h ((create : Op σ _).outcome react) w :=
  Op.unaware_create hw (Op.unaware_modify (fun _ => rfl) (Nat.le_refl _))

theorem Delegate.unaware_create (hw : h.index < w.next) : Unaware h ((create : Op σ _).outcome react) w :=
  Op.unaware_create hw (Op.unaware_modify (fun _ => rfl) (Nat.le_refl _))

theorem Bridge.unaware_create (hw : h.index < w.next) (c : ContextRef) (s : SessionRef) (k : HostRef) :
    Unaware h ((create c s k : Op σ _).outcome react) w := by
  refine Op.unaware_get_bind ?_ fun hwv hn => by rw [hwv.sessions]
  refine Op.unaware_bind hw (Op.unaware_create hw
    (Op.unaware_modify_then (g := fun v => v.acquire (.owner _) c.object) ?_ ?_)) fun b v hv => ?_
  · exact Op.unaware_modify (fun _ => rfl) (Nat.le_refl _)
  · exact Op.unaware_acquire (by simp [pin]) (by simp [Ref.object])
  · have hregister : Unaware h ((Registry.register c (w.sessions s).id b : Op σ Unit).outcome react) v :=
      Op.unaware_writeCell (fun _ _ => rfl) (Op.unaware_modify (fun _ => rfl) (Nat.le_refl _))
    exact Op.unaware_bind hv hregister fun _ _ _ => Op.unaware_pure b

theorem Session.unaware_changeClient (hw : h.index < w.next) (s : SessionRef) (client : Option ClientRef) :
    Unaware h ((changeClient s client : Op σ Unit).outcome react) w := by
  refine Op.unaware_get_bind ?_ fun hwv hn => by rw [hwv.sessions]
  refine Op.unaware_bind hw (Op.unaware_modify_then
    (g := fun v => v.changeSession s fun session => { session with client })
    (Op.unaware_acquire? (by decide) _ client) ?_) fun _ v hv => ?_
  · exact Op.unaware_modify (fun _ => rfl) (Nat.le_refl _)
  · split
    · next c _ => exact Op.unaware_releaseQuietly (o := c.object) (by simp [pin])
    · exact Op.unaware_pure ()

end Making

/-! ## Hosts in memory -/

namespace Host

omit hreact in
theorem unaware_attach (k : HostRef) (b : BridgeRef) : Unaware h ((attach k b : Op σ Unit).outcome react) w :=
  Op.unaware_writeCell (fun _ _ => rfl) (Op.unaware_modify (fun _ => rfl) (Nat.le_refl _))

omit hreact in
theorem unaware_hasBridge (k : HostRef) : Unaware h ((hasBridge k : Op σ _).outcome react) w := by
  refine Op.unaware_readCell fun {n v} hwv hn => ?_
  have halive : ∀ b : BridgeRef, v.isAlive b.object = w.isAlive b.object := fun b => hwv.isAlive hn b.object
  change isBridged v k = isBridged w k
  simp only [isBridged, hwv.hosts, halive]

omit hreact in
theorem unaware_attachedBridge? (k : HostRef) : Unaware h ((attachedBridge? k : Op σ _).outcome react) w :=
  Op.unaware_upgradeIn (by decide) (.hostAttached k) (fun w => (w.hosts k).attached) (fun _ _ => rfl)
    fun hwv => by rw [hwv.hosts]

theorem unaware_update (k : HostRef) (channel : Channel) (f : Settings → Settings) (hw : h.index < w.next) :
    Unaware h ((update k channel f).outcome react) w := by
  refine Op.unaware_bind hw (Op.unaware_writeCell (fun _ _ => rfl) ?_) fun _ v hv => ?_
  · exact Op.unaware_modify (fun _ => rfl) (Nat.le_refl _)
  · refine Op.unaware_bind hv (unaware_attachedBridge? k) fun attached u hu => ?_
    cases attached with
    | none => exact Op.unaware_pure ()
    | some b =>
      refine Op.unaware_bind hu (Bridge.unaware_update hreact b channel hu) fun _ _ hu => ?_
      exact Op.unaware_release hreact (by simp [pin, Ref.object]) hu

theorem unaware_set (k : HostRef) (change : Change) (hw : h.index < w.next) :
    Unaware h ((set k change).outcome react) w := by
  unfold set
  split
  · exact unaware_update hreact k _ _ hw
  · exact Op.unaware_pure ()

theorem unaware_setSettings (k : HostRef) (s : Settings) (hw : h.index < w.next) :
    Unaware h ((setSettings k s).outcome react) w := by
  unfold setSettings
  split
  · exact Op.unaware_bind hw (unaware_update hreact k _ _ hw) fun _ _ _ => Op.unaware_pure _
  · exact Op.unaware_pure _

end Host

/-! ## Clients -/

namespace Client

variable (c : ClientRef)

omit hreact in
theorem unaware_withView {body : ViewRef → Op σ Unit} (hw : h.index < w.next)
    (hbody : ∀ view v, h.index < v.next → Unaware h ((body view).outcome react) v) :
    Unaware h ((withView c body).outcome react) w := by
  refine Op.unaware_bind hw (Op.unaware_upgradeIn (by decide) (.clientView c) (fun w => (w.clients c).view)
    (fun _ _ => rfl) fun hwv => by rw [hwv.clients]) fun view v hv => ?_
  cases view with
  | none => exact Op.unaware_pure ()
  | some view =>
    refine Op.unaware_bind hv (hbody view v hv) fun _ _ _ => ?_
    exact Op.unaware_releaseQuietly (by simp [pin, Ref.object])

omit hreact in
theorem unaware_setView (view : ViewRef) : Unaware h ((setView c view : Op σ Unit).outcome react) w :=
  Op.unaware_writeCell (fun _ _ => rfl) (Op.unaware_modify (fun _ => rfl) (Nat.le_refl _))

omit hreact in
theorem unaware_setSaveFormData (enabled : Bool) :
    Unaware h ((setSaveFormData c enabled : Op σ Unit).outcome react) w :=
  Op.unaware_modify (fun _ => rfl) (Nat.le_refl _)

omit hreact in
theorem unaware_readSuggestions : Unaware h ((readSuggestions c : Op σ _).outcome react) w :=
  Op.unaware_readCell fun hwv _ => congrArg (fun clients => (clients c).suggestions) hwv.clients

omit hreact in
theorem unaware_storeDelegate (delegate : Option DelegateRef) :
    Unaware h ((Op.writeCell (.clientDelegate c)
      (·.changeClient c fun client => { client with delegate }) : Op σ Unit).outcome react) w :=
  Op.unaware_writeCell (fun _ _ => rfl) (Op.unaware_modify (fun _ => rfl) (Nat.le_refl _))

theorem unaware_showPopup (bounds : Rect) (direction : TextDirection) (suggestions : List Suggestion)
    (delegate : Option DelegateRef) (hw : h.index < w.next) :
    Unaware h ((showPopup c bounds direction suggestions delegate).outcome react) w := by
  have hstore : Unaware h ((Op.writeCell (.clientSuggestions c)
      (·.changeClient c fun client => { client with suggestions }) : Op σ Unit).outcome react) w :=
    Op.unaware_writeCell (fun _ _ => rfl) (Op.unaware_modify (fun _ => rfl) (Nat.le_refl _))
  refine Op.unaware_bind hw hstore fun _ _ hv => ?_
  refine Op.unaware_bind hv (unaware_storeDelegate c delegate) fun _ _ hu => ?_
  exact unaware_withView c hu fun _ _ ht => Op.unaware_call hreact ht _

theorem unaware_hidePopup (hw : h.index < w.next) : Unaware h ((hidePopup c).outcome react) w := by
  refine Op.unaware_bind hw (unaware_storeDelegate c none) fun _ _ hv => ?_
  exact unaware_withView c hv fun _ _ hu => Op.unaware_call hreact hu _

theorem unaware_select (position : Nat) (hw : h.index < w.next) :
    Unaware h ((select c position).outcome react) w := by
  refine Op.unaware_bind hw (Op.unaware_upgradeIn (by decide) (.clientDelegate c) (fun w => (w.clients c).delegate)
    (fun _ _ => rfl) fun hwv => by rw [hwv.clients]) fun delegate v hv => ?_
  cases delegate with
  | none => exact Op.unaware_pure ()
  | some d =>
    have hletGo : ∀ u, Unaware h ((modify (·.releaseQuietly .call d.object) : Op σ Unit).outcome react) u :=
      fun _ => Op.unaware_releaseQuietly (by simp [pin, Ref.object])
    refine Op.unaware_bind hv (Op.unaware_readCell fun hwv _ => ?_) fun suggestion u hu => ?_
    · exact congrArg (fun clients => (clients c).suggestions[position]?) hwv.clients
    · cases suggestion with
      | none => exact Op.unaware_bind hu (Op.unaware_pure ()) fun _ _ _ => hletGo _
      | some s => exact Op.unaware_bind hu (Op.unaware_call hreact hu _) fun _ _ _ => hletGo _

end Client

theorem Capability.unaware_ask (c : ClientRef) (question : Capability) (hw : h.index < w.next) :
    Unaware h ((question.ask c).outcome react) w := by
  refine Op.unaware_get_bind ?_ fun hwv hn => ?_
  · dsimp only
    cases question with
    | storeString key value =>
      dsimp only
      split
      · next p _ =>
        refine Op.unaware_bind hw ?_ fun _ _ _ => Op.unaware_pure _
        exact Op.unaware_keeping (by simp [Ref.object])
          (Service.unaware_store hreact (w := w.acquire .call p.object) hw p key value)
      · exact Op.unaware_pure _
    | showPopup bounds direction suggestions delegate =>
      exact Op.unaware_bind hw (Client.unaware_showPopup hreact c _ _ _ _ hw) fun _ _ _ => Op.unaware_pure _
    | hidePopup =>
      exact Op.unaware_bind hw (Client.unaware_hidePopup hreact c hw) fun _ _ _ => Op.unaware_pure _
    | hasService | stringUnder | isAutocompleteEnabled | hasPersonalData | canScanCards | scanCard
    | confirmSaveCard | requestAutocomplete | unsupported => exact Op.unaware_pure _
  · rw [hwv.same]

end Unawareness

end SettingsRelay
