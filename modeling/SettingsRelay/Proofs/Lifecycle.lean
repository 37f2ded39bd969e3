import SettingsRelay.Proofs.Operation
import SettingsRelay.Proofs.Share

/-!
# Making, holding and releasing as moves

The operations that make objects, look bridges up, keep objects alive and let them go. The end of a
bridge is one move up to the point where its host is told, so that whoever is told finds the bridge
out of the registry; what follows are moves again.
-/

namespace SettingsRelay

variable {σ : Type} {α β : Type}

open World (Carry Move Leads)

/-! ## The registry -/

namespace Registry

theorem outcome_find? (react : Reaction σ) (w : World σ) (c : ContextRef) (id : SessionId) :
    (find? c id : Op σ _).outcome react w =
      (w.living? ((w.contexts c).entered? id), (w.leased ⟨.registry c, false⟩).acquire? .call
        ((w.living? ((w.contexts c).entered? id)).map Ref.object)) :=
  Op.outcome_upgradeIn react w (.registry c) (fun w => (w.contexts c).entered? id) fun _ => rfl

theorem moves_find? (c : ContextRef) (id : SessionId) : (find? c id : Op σ _).Moves Carry :=
  Op.moves_upgradeIn (fun _ _ _ h => h) (.registry c) (fun w => (w.contexts c).entered? id) fun _ _ => rfl

theorem moves_count (c : ContextRef) : (count c : Op σ _).Moves Carry :=
  Op.moves_readCell (fun _ _ _ h => h) _ _

theorem outcome_unregister (react : Reaction σ) (w : World σ) (c : ContextRef) (id : SessionId) :
    (unregister c id : Op σ Unit).outcome react w =
      ((), (w.unregister c id).leased ⟨.registry c, true⟩) := by
  refine Op.outcome_writeCell react w _ (fun w => w.unregister c id) fun l => ?_
  have hentered : ((w.openLease l).contexts c).entered? id = (w.contexts c).entered? id := rfl
  have halive : ∀ o, (w.openLease l).isAlive o = w.isAlive o := fun _ => rfl
  simp only [World.unregister, hentered, halive]
  split
  · split <;> rfl
  · rfl

end Registry

/-! ## The end of a bridge -/

theorem Host.outcome_bridgeGone_memory (react : Reaction σ) {w : World σ} {h : HostRef} (b : BridgeRef)
    (hmemory : (w.hosts h).isInMemory = true) :
    (bridgeGone h b : Op σ Unit).outcome react w =
      ((), (w.detach h b).leased ⟨.hostAttached h, true⟩) := by
  rw [bridgeGone, Op.outcome_get_bind, if_pos hmemory]
  refine Op.outcome_writeCell react w _ (fun w => w.detach h b) fun l => ?_
  have hattached : ((w.openLease l).hosts h).attached = (w.hosts h).attached := rfl
  have halive : ∀ o, (w.openLease l).isAlive o = w.isAlive o := fun _ => rfl
  simp only [World.detach, hattached, halive]
  split
  · split <;> rfl
  · rfl

theorem Host.outcome_bridgeGone_custom (react : Reaction σ) {w : World σ} {h : HostRef} (b : BridgeRef)
    (hcustom : (w.hosts h).isInMemory = false) :
    (bridgeGone h b : Op σ Unit).outcome react w =
      ((), react (.bridgeGone h b (w.bridges b).sessionId) w) := by
  rw [bridgeGone, Op.outcome_get_bind, if_neg (by simp [hcustom])]
  rfl

theorem World.unregister_eq (w : World σ) (c : ContextRef) (id : SessionId) :
    w.unregister c id = { w with contexts := (w.unregister c id).contexts } := by
  unfold World.unregister
  split
  · split <;> rfl
  · rfl

theorem World.bury_eq (w : World σ) (holder : Holder) (b : BridgeRef) :
    w.bury holder b =
      { w with
        contexts := (w.bury holder b).contexts
        shares := (w.withdraw holder b.object).shares
        conflicts := (w.bury holder b).conflicts
        farewells := w.farewells ++ [⟨b, w.told? holder b⟩] } := by
  unfold World.bury World.told? World.strike
  rw [World.unregister_eq]
  rfl

@[simp] theorem World.shares_bury (w : World σ) (holder : Holder) (b : BridgeRef) :
    (w.bury holder b).shares = (w.withdraw holder b.object).shares := by
  rw [World.bury_eq]

@[simp] theorem World.isAlive_bury (w : World σ) (holder : Holder) (b : BridgeRef) (o : Object) :
    (w.bury holder b).isAlive o = (w.withdraw holder b.object).isAlive o :=
  World.isAlive_congr (w.shares_bury holder b) o

@[simp] theorem World.bridges_bury (w : World σ) (holder : Holder) (b : BridgeRef) :
    (w.bury holder b).bridges = w.bridges := by
  rw [World.bury_eq]

@[simp] theorem World.hosts_bury (w : World σ) (holder : Holder) (b : BridgeRef) :
    (w.bury holder b).hosts = w.hosts := by
  rw [World.bury_eq]

@[simp] theorem World.made_bury (w : World σ) (holder : Holder) (b : BridgeRef) :
    (w.bury holder b).made = w.made := by
  rw [World.bury_eq]

@[simp] theorem World.next_bury (w : World σ) (holder : Holder) (b : BridgeRef) :
    (w.bury holder b).next = w.next := by
  rw [World.bury_eq]

theorem World.parted_eq (w : World σ) (holder : Holder) (b : BridgeRef) :
    w.parted holder b =
      { w.bury holder b with
        shares := (w.parted holder b).shares
        hosts := (w.parted holder b).hosts
        conflicts := (w.parted holder b).conflicts } := by
  unfold World.parted
  split
  · dsimp only
    split
    · unfold World.detach
      split
      · split <;> rfl
      · rfl
    · rfl
  · rfl

namespace Bridge

theorem outcome_tell (react : Reaction σ) {w : World σ} {holder : Holder} {b : BridgeRef} {host : HostRef}
    (htold : w.told? holder b = some host) :
    ((Op.keeping host.object (Host.bridgeGone host b)).outcome react (w.bury holder b)).2 =
      (react.answer (w.farewell? holder b) (w.parted holder b)).releaseQuietly .call host.object := by
  have hkept : ((w.bury holder b).acquire .call host.object).hosts host = w.hosts host :=
    congrFun (w.hosts_bury holder b) host
  have hbridge : ((w.bury holder b).acquire .call host.object).bridges b = w.bridges b :=
    congrFun (w.bridges_bury holder b) b
  rw [Op.outcome_keeping, World.farewell?, World.parted, htold]
  dsimp only
  cases hmemory : (w.hosts host).isInMemory with
  | true =>
    rw [Host.outcome_bridgeGone_memory react b (by rw [hkept, hmemory]), if_pos rfl, if_pos rfl]
    rfl
  | false =>
    rw [Host.outcome_bridgeGone_custom react b (by rw [hkept, hmemory]), hbridge]
    rfl

theorem outcome_teardown (react : Reaction σ) (w : World σ) (holder : Holder) (b : BridgeRef) :
    (teardown b : Op σ Unit).outcome react (w.withdraw holder b.object) =
      ((), (react.answer (w.farewell? holder b) (w.parted holder b)).settled b (w.bridges b).context
        (w.told? holder b)) := by
  rw [teardown, Op.outcome_get_bind, Op.outcome_bind, Registry.outcome_unregister, Op.outcome_get_bind]
  change (ite ((w.strike holder b).isAlive (w.bridges b).host.object = true) _ _ : Op σ Unit).outcome
    react (w.strike holder b) = _
  split
  · next hhost =>
    have htold : w.told? holder b = some (w.bridges b).host := if_pos hhost
    have hbury : w.bury holder b = { w.strike holder b with
        farewells := (w.strike holder b).farewells ++ [⟨b, some (w.bridges b).host⟩] } := by
      rw [World.bury, if_pos hhost]
    rw [htold, World.settled, ← outcome_tell react htold, hbury]
    rfl
  · next hhost =>
    have htold : w.told? holder b = none := if_neg hhost
    rw [World.farewell?, World.parted, htold, World.bury, if_neg hhost]
    rfl

theorem leads_teardown {w : World σ} {holder : Holder} {b : BridgeRef} (react : Reaction σ)
    (hheld : ⟨holder, b.object⟩ ∈ w.shares)
    (hdead : (w.withdraw holder b.object).isAlive b.object = false) :
    Leads Move react w ((teardown b : Op σ Unit).outcome react (w.withdraw holder b.object)).2 := by
  have hparted : Leads Move react w (react.answer (w.farewell? holder b) (w.parted holder b)) :=
    .move .start (.bury w holder b hheld hdead)
  rw [outcome_teardown]
  cases w.told? holder b with
  | none => exact hparted.move (.part _ b _)
  | some host =>
    exact (hparted.move (.carry (.letGo _ host.object (by simp [Ref.object])))).move (.part _ b _)

end Bridge

/-! ## Releasing and holding -/

namespace Op

theorem moves_release_bridge (holder : Holder) (b : BridgeRef) :
    (release holder b.object : Op σ Unit).Moves Move := by
  intro w react
  rw [release, if_pos (show b.object.kind = .bridge from rfl), outcome_get_bind]
  split
  · next hheld =>
    rw [outcome_bind, outcome_modify, outcome_get_bind]
    split
    · next hdead => exact Bridge.leads_teardown (b := b) react hheld (by simpa using hdead)
    · next halive => exact .of_move (.withdraw w holder b (by simpa using halive))
  · exact .start

theorem outcome_release_quiet (react : Reaction σ) (w : World σ) (holder : Holder) {o : Object}
    (hkind : o.kind ≠ .bridge) :
    (release holder o).outcome react w = ((), w.releaseQuietly holder o) := by
  rw [release, if_neg hkind]
  rfl

/-- A share that is given back leaves a bridge alone as long as somebody else has one. -/
theorem outcome_release_bridge (react : Reaction σ) {w : World σ} {holder : Holder} {b : BridgeRef}
    (halive : (w.withdraw holder b.object).isAlive b.object = true) :
    (release holder b.object).outcome react w = ((), w.withdraw holder b.object) := by
  rw [release, if_pos (show b.object.kind = .bridge from rfl), outcome_get_bind]
  split
  · rw [outcome_bind, outcome_modify, outcome_get_bind, halive]
    rfl
  · next hnot =>
    have hsame : w.withdraw holder b.object = w := by
      rw [World.withdraw, List.erase_of_not_mem hnot]
    rw [hsame]
    rfl

theorem moves_release_call (o : Object) : (release .call o : Op σ Unit).Moves Move := by
  obtain ⟨kind, n⟩ := o
  by_cases hkind : kind = .bridge
  · subst hkind
    exact moves_release_bridge .call ⟨n⟩
  · intro w react
    rw [outcome_release_quiet react w .call hkind]
    exact .of_move (.carry (.letGo w _ hkind))

theorem moves_release_embedder (o : Object) : (release .embedder o : Op σ Unit).Moves Move := by
  obtain ⟨kind, n⟩ := o
  by_cases hkind : kind = .bridge
  · subst hkind
    exact moves_release_bridge .embedder ⟨n⟩
  · intro w react
    rw [outcome_release_quiet react w .embedder hkind]
    exact .of_move (.drop w _ hkind)

theorem movesFrom_holding {w : World σ} {o : Object} {body : Op σ α} (halive : w.isAlive o = true)
    (hbody : body.MovesFrom Move (w.acquire .call o)) : (holding o body).MovesFrom Move w := by
  refine movesFrom_modify_bind (.carry (.hold w o (.inl halive))) ?_
  refine hbody.bind fun x => ?_
  exact (moves_release_call o).bind fun _ => moves_pure x

end Op

/-! ## Bridges and hosts -/

theorem Bridge.outcome_create (react : Reaction σ) (w : World σ) (c : ContextRef) (s : SessionRef)
    (h : HostRef) : (create c s h : Op σ _).outcome react w = (⟨w.next⟩, w.makeBridge c s h) := by
  rw [create, Op.outcome_get_bind, Op.outcome_bind]
  refine congrArg (Prod.mk _) ?_
  exact congrArg Prod.snd (Op.outcome_writeCell react _ (.registry c)
    (·.changeContext c (·.enter (w.sessions s).id ⟨w.next⟩)) fun _ => rfl)

theorem Bridge.moves_populateFor (c : ContextRef) (s : SessionRef) (p : Preferences) :
    (populateFor c s p : Op σ _).Moves Move := by
  intro w
  refine Op.movesFrom_get_bind ?_
  refine (((Registry.moves_find? c _).mono fun _ _ _ => .carry).bind fun found => ?_) w
  cases found with
  | none => exact Op.moves_pure p
  | some b =>
    refine ((moves_populate b p).mono fun _ _ _ => .carry).bind fun filled => ?_
    exact (Op.moves_release_call _).bind fun _ => Op.moves_pure filled

namespace Bridge

theorem moves_update_of_ne {channel : Channel} (h : channel ≠ .acceptLanguages) (b : BridgeRef) :
    (update channel b : Op σ Unit).Moves Carry := by
  cases channel with
  | preferences => exact moves_updatePreferences b
  | userAgent => exact moves_updateUserAgent b
  | pageScale => exact moves_updatePageScale b
  | formData => exact moves_updateFormData b
  | acceptLanguages => exact absurd rfl h
  | everything => exact moves_updateEverything b

theorem moves_update (channel : Channel) (b : BridgeRef) : (update channel b : Op σ Unit).Moves Move := by
  by_cases h : channel = .acceptLanguages
  · subst h
    exact moves_updateAcceptLanguages b
  · exact (moves_update_of_ne h b).mono fun _ _ _ => .carry

theorem moves_perform (action : BridgeAction) (b : BridgeRef) :
    (action.perform b : Op σ Unit).Moves Move := by
  cases action with
  | updateEverything | renderViewCreated => exact (moves_updateEverything b).mono fun _ _ _ => .carry
  | updatePageScale => exact (moves_updatePageScale b).mono fun _ _ _ => .carry
  | updatePreferences => exact (moves_updatePreferences b).mono fun _ _ _ => .carry
  | updateUserAgent => exact (moves_updateUserAgent b).mono fun _ _ _ => .carry
  | updateFormData => exact (moves_updateFormData b).mono fun _ _ _ => .carry
  | updateAcceptLanguages => exact moves_updateAcceptLanguages b
  | resetScroll => exact (moves_resetScroll b).mono fun _ _ _ => .carry

end Bridge

namespace Host

theorem outcome_attachedBridge? (react : Reaction σ) (w : World σ) (h : HostRef) :
    (attachedBridge? h : Op σ _).outcome react w =
      (w.living? (w.hosts h).attached, (w.leased ⟨.hostAttached h, false⟩).acquire? .call
        ((w.living? (w.hosts h).attached).map Ref.object)) :=
  Op.outcome_upgradeIn react w (.hostAttached h) (fun w => (w.hosts h).attached) fun _ => rfl

theorem movesFrom_attach {w : World σ} {h : HostRef} {b : BridgeRef} (hhost : w.isAlive h.object = true)
    (hbridge : w.isAlive b.object = true) : (attach h b : Op σ Unit).MovesFrom Move w :=
  Op.movesFrom_writeCell (fun _ _ _ => .carry) (fun _ _ => rfl) (.attach w h b hhost hbridge)

theorem moves_hasBridge (h : HostRef) : (hasBridge h : Op σ _).Moves Move :=
  Op.moves_readCell (fun _ _ _ => .carry) _ _

theorem movesFrom_update {w : World σ} (h : HostRef) (channel : Channel) {f : Settings → Settings}
    (m : Move w none (w.changeHost h fun host => host.withSettings (f host.settings))) :
    (update h channel f : Op σ Unit).MovesFrom Move w := by
  refine (Op.movesFrom_writeCell (fun _ _ _ => .carry) (fun _ _ => rfl) m).bind fun _ => ?_
  refine (Op.moves_upgradeIn (fun _ _ _ => .carry) (.hostAttached h) (fun w => (w.hosts h).attached)
    fun _ _ => rfl).bind fun attached => ?_
  cases attached with
  | none => exact Op.moves_pure ()
  | some b => exact (Bridge.moves_update channel b).bind fun _ => Op.moves_release_call b.object

theorem moves_set (h : HostRef) (change : Change) : (set h change : Op σ Unit).Moves Move := by
  intro w
  unfold set
  split
  · next htaken => exact movesFrom_update h _ (.set w h change htaken)
  · exact Op.moves_pure () w

theorem moves_setSettings (h : HostRef) (s : Settings) : (setSettings h s : Op σ _).Moves Move := by
  intro w
  unfold setSettings Settings.validated
  cases hvalid : s.validate with
  | ok _ =>
    exact (movesFrom_update h .everything (.replace w h s hvalid)).bind fun _ => Op.moves_pure _
  | error violation => exact Op.moves_pure _ w

theorem moves_readSettings (h : HostRef) : (readSettings h : Op σ _).Moves Move :=
  Op.moves_readHost (fun _ _ _ => .carry) h _

end Host

end SettingsRelay
