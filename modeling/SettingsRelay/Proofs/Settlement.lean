import SettingsRelay.Proofs.Balance

/-!
# Settlement

Every operation gives back what it takes: whatever was owed when it began, and nothing else, is owed when it
has returned, as long as whoever is called keeps to the same. There is one lemma for each way to put operations
together and one for each operation. An operation that is handed a share by another one and has to give it back
settles that share.
-/

namespace SettingsRelay

variable {σ : Type} {α β : Type}

namespace World

/-- From one world to the other neither the embedder has noted anything nor have hosts come to answer otherwise.
-/
structure Undisturbed (w v : World σ) : Prop where
  next : w.next ≤ v.next
  embedder : v.embedder = w.embedder
  hosts : ∀ h, ∃ a, v.hosts h = (w.hosts h).withAttached a

theorem Undisturbed.of_hosts {w v : World σ} (hnext : w.next ≤ v.next) (hembedder : v.embedder = w.embedder)
    (hhosts : v.hosts = w.hosts) : Undisturbed w v where
  next := hnext
  embedder := hembedder
  hosts h := ⟨(w.hosts h).attached, by rw [hhosts]; cases w.hosts h <;> rfl⟩

theorem Undisturbed.trans {w v u : World σ} (hwv : Undisturbed w v) (hvu : Undisturbed v u) : Undisturbed w u where
  next := hwv.next.trans hvu.next
  embedder := hvu.embedder.trans hwv.embedder
  hosts h := by
    obtain ⟨a, ha⟩ := hvu.hosts h
    obtain ⟨a', ha'⟩ := hwv.hosts h
    refine ⟨a, ?_⟩
    rw [ha, ha']
    cases w.hosts h <;> rfl

theorem undisturbed_attached (w : World σ) (h : HostRef) (a : Option BridgeRef) :
    Undisturbed w (w.changeHost h (·.withAttached a)) where
  next := Nat.le_refl _
  embedder := rfl
  hosts k := by
    rw [hosts_changeHost]
    split
    · next hk => exact ⟨a, by rw [hk]⟩
    · exact (Undisturbed.of_hosts (Nat.le_refl _) rfl rfl : Undisturbed w w).hosts k

theorem undisturbed_parted (w : World σ) (holder : Holder) (b : BridgeRef) :
    Undisturbed w (w.parted holder b) := by
  have hburied : Undisturbed w (w.bury holder b) :=
    .of_hosts (w.next_bury holder b).ge (by rw [bury_eq]) (w.hosts_bury holder b)
  have hdetached : ∀ (v : World σ) host, Undisturbed v (v.detach host b) := fun v host => by
    unfold detach
    split
    · split
      · exact .of_hosts (Nat.le_refl _) rfl rfl
      · exact undisturbed_attached v host none
    · exact .of_hosts (Nat.le_refl _) rfl rfl
  unfold parted
  split
  · next host _ =>
    have hkept : Undisturbed w ((w.bury holder b).acquire .call host.object) :=
      hburied.trans (.of_hosts (Nat.le_refl _) rfl rfl)
    dsimp only
    split
    · exact (hkept.trans (hdetached _ host)).trans (.of_hosts (Nat.le_refl _) rfl rfl)
    · exact hkept
  · exact hburied

end World

open World (Undisturbed)

/-- A property of worlds that is lost only if the embedder notes something or a host comes to answer otherwise. -/
structure Tenet (σ : Type) where
  holds : World σ → Prop
  of_undisturbed : ∀ {w v}, Undisturbed w v → holds w → holds v

namespace Tenet

variable (I : Tenet σ) {w v : World σ}

theorem of_same (h : I.holds w) (hnext : v.next = w.next) (hembedder : v.embedder = w.embedder)
    (hhosts : v.hosts = w.hosts) : I.holds v := I.of_undisturbed (.of_hosts hnext.ge hembedder hhosts) h

theorem releaseQuietly (holder : Holder) (o : Object) (h : I.holds w) : I.holds (w.releaseQuietly holder o) := by
  rw [World.releaseQuietly_eq]
  exact I.of_same h rfl rfl rfl

end Tenet

def World.Audited (I : Tenet σ) (debts : List Share) (w : World σ) : Prop := w.Balanced debts ∧ I.holds w

open World (Audited)

/-- Whatever is owed when a call is made is owed when it returns, and a tenet holds if it held. -/
def Reaction.IsFair (I : Tenet σ) (react : Reaction σ) : Prop :=
  ∀ c debts w, Audited I debts w → Audited I debts (react c w)

namespace Op

/-- An operation that is carried out in a world gives back the shares in question, and all those that it takes.
It respects the tenet. -/
def SettlesFrom (I : Tenet σ) (shares : List Share) (w : World σ) (op : Op σ α) : Prop :=
  ∀ react debts, Reaction.IsFair I react → Audited I (shares ++ debts) w → Audited I debts (op.outcome react w).2

def Settles (I : Tenet σ) (shares : List Share) (op : Op σ α) : Prop := ∀ w, op.SettlesFrom I shares w

variable {I : Tenet σ} {w : World σ} {shares : List Share}

/-! ## How operations are put together -/

theorem settles_pure (x : α) : (pure x : Op σ α).Settles I [] := fun _ _ _ _ h => h

theorem settlesFrom_get_bind {next : World σ → Op σ α} (h : (next w).SettlesFrom I shares w) :
    (get >>= next).SettlesFrom I shares w := h

theorem settlesFrom_modify {f : World σ → World σ} (hf : ∀ debts, w.Balanced (shares ++ debts) → (f w).Balanced debts)
    (hkept : I.holds w → I.holds (f w)) : (modify f : Op σ Unit).SettlesFrom I shares w :=
  fun _ debts _ h => ⟨hf debts h.1, hkept h.2⟩

theorem settlesFrom_change {f : World σ → World σ} (hshares : (f w).shares = w.shares) (hnext : (f w).next = w.next)
    (howned : ∀ o, (f w).owned o = w.owned o) (hkept : I.holds w → I.holds (f w)) :
    (modify f : Op σ Unit).SettlesFrom I [] w :=
  settlesFrom_modify (fun _ h => h.of_same hshares hnext howned) hkept

theorem SettlesFrom.bind {op : Op σ α} {next : α → Op σ β} (h : op.SettlesFrom I shares w)
    (hnext : ∀ x, (next x).Settles I []) : (op >>= next).SettlesFrom I shares w := by
  intro react debts hfair hw
  rw [outcome_bind]
  exact hnext _ _ react debts hfair (h react debts hfair hw)

theorem Settles.bind {op : Op σ α} {next : α → Op σ β} (h : op.Settles I shares) (hnext : ∀ x, (next x).Settles I []) :
    (op >>= next).Settles I shares := fun w => (h w).bind hnext

/-- What is in question may also be given back later. -/
theorem SettlesFrom.bind_later {op : Op σ α} {next : α → Op σ β} (h : op.SettlesFrom I [] w)
    (hnext : ∀ x, (next x).Settles I shares) : (op >>= next).SettlesFrom I shares w := by
  intro react debts hfair hw
  rw [outcome_bind]
  exact hnext _ _ react debts hfair (h react (shares ++ debts) hfair hw)

theorem Settles.bind_later {op : Op σ α} {next : α → Op σ β} (h : op.Settles I [])
    (hnext : ∀ x, (next x).Settles I shares) : (op >>= next).Settles I shares := fun w => (h w).bind_later hnext

theorem Settles.ignore {op : Op σ α} (h : op.Settles I []) : (do let _ ← op : Op σ Unit).Settles I [] :=
  h.bind fun _ => settles_pure ()

/-! ## Calls and cells -/

theorem settles_call (c : Call) : (call c : Op σ Unit).Settles I [] := fun w _ debts hfair h => hfair c debts w h

theorem audited_leased {debts : List Share} (h : Audited I debts w) (l : Lease) : Audited I debts (w.leased l) :=
  ⟨h.1.of_same rfl rfl fun _ => rfl, I.of_same h.2 rfl rfl rfl⟩

theorem settles_readCell (cell : Cell) (f : World σ → α) : (readCell cell f).Settles I [] := by
  intro w react debts _ h
  rw [outcome_readCell]
  exact audited_leased h _

theorem settles_readHost (h : HostRef) (f : Host → α) : (readHost h f : Op σ α).Settles I [] := by
  intro w
  refine settlesFrom_get_bind ?_
  split
  · exact settles_readCell _ _ w
  · exact settles_pure _ w

theorem settlesFrom_writeCell {cell : Cell} {f : World σ → World σ}
    (hf : ∀ w l, f (w.openLease l) = (f w).openLease l) (hshares : (f w).shares = w.shares)
    (hnext : (f w).next = w.next) (howned : ∀ o, (f w).owned o = w.owned o)
    (hkept : I.holds w → I.holds (f w)) : (writeCell cell f).SettlesFrom I [] w := by
  intro react debts hfair h
  rw [outcome_writeCell react w cell f (hf w)]
  exact audited_leased (settlesFrom_change hshares hnext howned hkept react debts hfair h) _

/-! ## Shares -/

theorem audited_acquire {debts : List Share} {o : Object} (h : Audited I debts w)
    (halive : w.isAlive o = true ∨ o.kind = .service) :
    Audited I (⟨.call, o⟩ :: debts) (w.acquire .call o) :=
  ⟨h.1.acquire halive (by simp), I.of_same h.2 rfl rfl rfl⟩

theorem settlesFrom_keeping {o : Object} {body : Op σ α} (halive : w.isAlive o = true ∨ o.kind = .service)
    (hkind : o.kind ≠ .bridge) (hbody : body.Settles I []) : (keeping o body).SettlesFrom I [] w := by
  intro react debts hfair h
  obtain ⟨hbalanced, hholds⟩ := hbody _ react _ hfair (audited_acquire h halive)
  rw [outcome_keeping]
  exact ⟨hbalanced.releaseQuietly hkind, I.releaseQuietly _ _ hholds⟩

/-- What follows a reference that is kept in a cell is handed a share if it is alive. -/
theorem settles_upgradeIn_bind {kind : ObjectKind} (cell : Cell) {g : World σ → Option (Ref kind)}
    (hg : ∀ w l, g (w.openLease l) = g w) {next : Option (Ref kind) → Op σ α} (hnone : (next none).Settles I [])
    (hsome : ∀ r : Ref kind, (next (some r)).Settles I [⟨.call, r.object⟩]) :
    ((withLease cell false do upgrade (g (← get))) >>= next).Settles I [] := by
  intro w react debts hfair h
  have hleased := audited_leased h ⟨cell, false⟩
  rw [outcome_bind, outcome_upgradeIn react w cell g (hg w)]
  dsimp only
  cases hr : w.living? (g w) with
  | none => exact hnone _ react debts hfair hleased
  | some r =>
    have halive : w.isAlive r.object = true := (Option.filter_eq_some_iff.1 hr).2
    exact hsome r _ react debts hfair (audited_acquire hleased (.inl halive))

end Op

/-! ### The end of a bridge -/

namespace World

variable {I : Tenet σ} {w : World σ} {debts : List Share} {holder : Holder} {b : BridgeRef} {react : Reaction σ}

theorem Balanced.parted (h : (w.withdraw holder b.object).Balanced debts) :
    (w.parted holder b).Balanced
      (((w.told? holder b).map Ref.object).toList.map (Share.mk .call) ++ debts) := by
  have hburied : (w.bury holder b).Balanced debts :=
    h.of_same (w.shares_bury holder b) (w.next_bury holder b) (w.owned_bury holder b)
  have hdetached : ∀ {v : World σ} {shares : List Share} host, v.Balanced shares →
      (v.detach host b).Balanced shares := fun {v shares} host hv => by
    unfold detach
    split
    · split
      · exact hv
      · exact hv.of_same rfl rfl fun _ => rfl
    · exact hv
  unfold World.parted
  cases htold : w.told? holder b with
  | none => exact hburied
  | some host =>
    have halive : (w.bury holder b).isAlive host.object = true := by
      rw [isAlive_bury]
      rw [told?_eq] at htold
      split at htold
      · next halive =>
        cases htold
        exact halive
      · cases htold
    have hkept : ((w.bury holder b).acquire .call host.object).Balanced (⟨.call, host.object⟩ :: debts) :=
      hburied.acquire (.inl halive) (by simp)
    dsimp only
    split
    · exact (hdetached host hkept).of_same rfl rfl fun _ => rfl
    · exact hkept

theorem Balanced.settled {u : World σ} {c : ContextRef} {told : Option HostRef}
    (h : u.Balanced ((told.map Ref.object).toList.map (Share.mk .call) ++ ⟨.owner b.object, c.object⟩ :: debts)) :
    (u.settled b c told).Balanced debts := by
  cases told with
  | none => exact releaseContext h
  | some host =>
    have hlet : (u.releaseQuietly .call host.object).Balanced (⟨.owner b.object, c.object⟩ :: debts) :=
      releaseQuietly h (by simp [Ref.object])
    exact releaseContext hlet

/-- A bridge that ends gives its share in its context back, after its host has been told. -/
theorem Audited.ended (hfair : react.IsFair I) (hbalanced : (w.withdraw holder b.object).Balanced
      (⟨.owner b.object, (w.bridges b).context.object⟩ :: debts)) (hholds : I.holds w) :
    Audited I debts ((react.answer (w.farewell? holder b) (w.parted holder b)).settled b (w.bridges b).context
      (w.told? holder b)) := by
  have hparted : Audited I (((w.told? holder b).map Ref.object).toList.map (Share.mk .call) ++
      ⟨.owner b.object, (w.bridges b).context.object⟩ :: debts) (w.parted holder b) :=
    ⟨hbalanced.parted, I.of_undisturbed (undisturbed_parted w holder b) hholds⟩
  have hanswered : Audited I (((w.told? holder b).map Ref.object).toList.map (Share.mk .call) ++
      ⟨.owner b.object, (w.bridges b).context.object⟩ :: debts)
      (react.answer (w.farewell? holder b) (w.parted holder b)) := by
    cases w.farewell? holder b with
    | none => exact hparted
    | some c => exact hfair c _ _ hparted
  refine ⟨hanswered.1.settled, ?_⟩
  rw [settled_eq]
  exact I.of_same hanswered.2 rfl rfl rfl

end World

namespace Op

variable {I : Tenet σ} {w : World σ}

theorem settles_release (holder : Holder) (o : Object) : (release holder o : Op σ Unit).Settles I [⟨holder, o⟩] := by
  intro w react debts hfair h
  obtain ⟨kind, n⟩ := o
  by_cases hkind : kind = .bridge
  · subst hkind
    let b : BridgeRef := ⟨n⟩
    change Audited I debts ((release holder b.object).outcome react w).2
    by_cases hmem : ⟨holder, b.object⟩ ∈ w.shares
    · by_cases halive : (w.withdraw holder b.object).isAlive b.object = true
      · rw [outcome_release_bridge react halive]
        exact ⟨h.1.withdraw_alive hmem halive, I.of_same h.2 rfl rfl rfl⟩
      · have hdead := eq_false_of_ne_true halive
        rw [outcome_release_last react hmem hdead]
        exact .ended hfair (h.1.withdraw_last hmem hdead) h.2
    · by_cases hholder : holder = .embedder
      · subst hholder
        rw [release, if_pos (show b.object.kind = .bridge from rfl), outcome_get_bind, if_neg hmem]
        exact ⟨h.1.of_embedder, h.2⟩
      · exact absurd (h.1.held hholder) hmem
  · rw [outcome_release_quiet react w holder hkind]
    exact ⟨h.1.releaseQuietly hkind, I.releaseQuietly _ _ h.2⟩

theorem settles_letGo {o : Object} (hkind : o.kind ≠ .bridge) :
    (modify (·.releaseQuietly .call o) : Op σ Unit).Settles I [⟨.call, o⟩] := fun _ =>
  settlesFrom_modify (fun _ h => h.releaseQuietly hkind) (I.releaseQuietly _ _)

theorem settlesFrom_holding {o : Object} {body : Op σ α} (halive : w.isAlive o = true)
    (hbody : body.Settles I []) : (holding o body).SettlesFrom I [] w := by
  intro react debts hfair h
  exact settles_release .call o _ react debts hfair (hbody _ react _ hfair (audited_acquire h (.inl halive)))

end Op

variable {I : Tenet σ}

/-! ## The engine -/

theorem Session.settles_change (s : SessionRef) (f : Session → Session) (hf : ∀ x, (f x).client = x.client) :
    (modify (·.changeSession s f) : Op σ Unit).Settles I [] := fun _ =>
  Op.settlesFrom_change rfl rfl (World.owned_changeSession hf) fun h => I.of_same h rfl rfl rfl

theorem Session.settles_overrideUserAgent (s : SessionRef) (agent : String) :
    (overrideUserAgent s agent : Op σ Unit).Settles I [] :=
  (settles_change s (fun session => { session with userAgent := some agent }) fun _ => rfl).bind fun _ =>
    Op.settles_call _

theorem Session.settles_markEntry (s : SessionRef) (index : Nat) (overriding : Bool) :
    (markEntry s index overriding : Op σ Unit).Settles I [] :=
  (settles_change s (fun session => { session with entries := session.entries.set index overriding })
    fun _ => rfl).bind fun _ => Op.settles_call _

theorem Session.settles_markEntries (s : SessionRef) (overriding : Bool) (indices : List Nat) :
    (markEntries s overriding indices : Op σ Unit).Settles I [] := by
  induction indices with
  | nil => exact Op.settles_pure ()
  | cons index rest ih => exact (settles_markEntry s index overriding).bind fun _ => ih

theorem Service.settles_store (p : ServiceRef) (key value : String) : (store p key value : Op σ Unit).Settles I [] :=
  fun _ => (Op.settlesFrom_change rfl rfl (fun _ => rfl) fun h => I.of_same h rfl rfl rfl).bind
    fun _ => Op.settles_call _

/-! ## Clients -/

namespace Client

variable (c : ClientRef)

theorem settles_setSaveFormData (enabled : Bool) : (setSaveFormData c enabled : Op σ Unit).Settles I [] := fun w =>
  Op.settlesFrom_change rfl rfl
    (World.owned_changeClient (w := w) (f := fun client => { client with saveFormData := enabled }) fun _ => rfl)
    fun h => I.of_same h rfl rfl rfl

theorem settles_write (cell : Cell) (f : Client → Client) (hf : ∀ x, (f x).service = x.service) :
    (Op.writeCell cell (·.changeClient c f) : Op σ Unit).Settles I [] := fun _ =>
  Op.settlesFrom_writeCell (fun _ _ => rfl) rfl rfl (World.owned_changeClient hf) fun h => I.of_same h rfl rfl rfl

theorem settles_storeDelegate (delegate : Option DelegateRef) :
    (Op.writeCell (.clientDelegate c)
      (·.changeClient c fun client => { client with delegate }) : Op σ Unit).Settles I [] :=
  settles_write c _ (fun client => { client with delegate }) fun _ => rfl

theorem settles_withView {body : ViewRef → Op σ Unit} (hbody : ∀ v, (body v).Settles I []) :
    (withView c body).Settles I [] :=
  Op.settles_upgradeIn_bind (.clientView c) (g := fun w => (w.clients c).view) (fun _ _ => rfl) (Op.settles_pure ())
    fun v => (hbody v).bind_later fun _ => Op.settles_letGo (by simp [Ref.object])

theorem settles_setView (v : ViewRef) : (setView c v : Op σ Unit).Settles I [] :=
  settles_write c _ (fun client => { client with view := some v }) fun _ => rfl

theorem settles_readSuggestions : (readSuggestions c : Op σ _).Settles I [] := Op.settles_readCell _ _

theorem settles_showPopup (bounds : Rect) (direction : TextDirection) (suggestions : List Suggestion)
    (delegate : Option DelegateRef) :
    (showPopup c bounds direction suggestions delegate : Op σ Unit).Settles I [] := by
  refine (settles_write c _ (fun client => { client with suggestions }) fun _ => rfl).bind fun _ => ?_
  refine (settles_storeDelegate c delegate).bind fun _ => ?_
  exact settles_withView c fun v => Op.settles_call _

theorem settles_hidePopup : (hidePopup c : Op σ Unit).Settles I [] :=
  (settles_storeDelegate c none).bind fun _ => settles_withView c fun _ => Op.settles_call _

theorem settles_select (position : Nat) : (select c position : Op σ Unit).Settles I [] := by
  refine Op.settles_upgradeIn_bind (.clientDelegate c) (g := fun w => (w.clients c).delegate) (fun _ _ => rfl)
    (Op.settles_pure ()) fun d => ?_
  have hletGo : (modify (·.releaseQuietly .call d.object) : Op σ Unit).Settles I [⟨.call, d.object⟩] :=
    Op.settles_letGo (by simp [Ref.object])
  refine (Op.settles_readCell _ _).bind_later fun suggestion => ?_
  cases suggestion with
  | none => exact hletGo
  | some s => exact (Op.settles_call _).bind_later fun _ => hletGo

end Client

theorem Capability.settles_ask (c : ClientRef) (question : Capability) : (question.ask c : Op σ _).Settles I [] := by
  intro w
  refine Op.settlesFrom_get_bind ?_
  dsimp only
  cases question with
  | storeString key value =>
    dsimp only
    split
    · next p _ =>
      exact (Op.settlesFrom_keeping (.inr rfl) (by simp [Ref.object]) (Service.settles_store p key value)).bind
        fun _ => Op.settles_pure _
    · exact Op.settles_pure _ w
  | showPopup bounds direction suggestions delegate =>
    exact ((Client.settles_showPopup c _ _ _ _).bind fun _ => Op.settles_pure _) w
  | hidePopup => exact ((Client.settles_hidePopup c).bind fun _ => Op.settles_pure _) w
  | hasService | stringUnder | isAutocompleteEnabled | hasPersonalData | canScanCards | scanCard
  | confirmSaveCard | requestAutocomplete | unsupported => exact Op.settles_pure _ w

/-! ## Bridges -/

namespace Bridge

variable (b : BridgeRef) (h : HostRef)

theorem settles_withHost {body : HostRef → Op σ Unit} (hbody : ∀ h, (body h).Settles I []) :
    (withHost b body).Settles I [] := by
  intro w
  refine Op.settlesFrom_get_bind (Op.settlesFrom_get_bind ?_)
  split
  · next halive => exact Op.settlesFrom_keeping (.inl halive) (by simp [Ref.object]) (hbody _)
  · exact Op.settles_pure () w

theorem settles_ifHosted {body : Op σ Unit} (hbody : body.Settles I []) : (ifHosted b body).Settles I [] := by
  intro w
  refine Op.settlesFrom_get_bind (Op.settlesFrom_get_bind ?_)
  split
  · exact hbody w
  · exact Op.settles_pure () w

theorem settles_withSession {body : SessionRef → Op σ Unit} (hbody : ∀ s, (body s).Settles I []) :
    (withSession b body).Settles I [] := by
  intro w
  refine Op.settlesFrom_get_bind (Op.settlesFrom_get_bind ?_)
  split
  · next halive => exact Op.settlesFrom_keeping (.inl halive) (by simp [Ref.object]) (hbody _)
  · exact Op.settles_pure () w

theorem settles_pushPageScale : (pushPageScale b h : Op σ Unit).Settles I [] := by
  intro w
  refine Op.settlesFrom_get_bind ?_
  split
  · exact ((Op.settles_readHost _ _).bind fun _ => Op.settles_call _) w
  · exact Op.settles_pure () w

theorem settles_pushPreferences : (pushPreferences b : Op σ Unit).Settles I [] := by
  refine settles_withSession b fun s w => Op.settlesFrom_get_bind ?_
  dsimp only
  split
  · exact Op.settles_call _ w
  · exact Op.settles_pure () w

theorem settles_pushUserAgent : (pushUserAgent b h : Op σ Unit).Settles I [] := by
  refine settles_withSession b fun s w => Op.settlesFrom_get_bind ?_
  refine ((Op.settles_readHost h _).bind fun agent => ?_) w
  have hmark : ∀ receiver overriding, (do
      let count := ((← get).sessions receiver).entries.length
      Session.markEntries receiver overriding (List.range count) : Op σ Unit).Settles I [] :=
    fun receiver overriding v => Op.settlesFrom_get_bind (Session.settles_markEntries _ _ _ v)
  cases agent with
  | none => exact hmark _ _
  | some agent => exact (Session.settles_overrideUserAgent _ _).bind fun _ => hmark _ _

theorem settles_pushFormData : (pushFormData b h : Op σ Unit).Settles I [] := by
  intro w
  refine Op.settlesFrom_get_bind ?_
  dsimp only
  split
  · split
    · exact ((Op.settles_readHost h _).bind fun _ => Client.settles_setSaveFormData _ _) w
    · exact Op.settles_pure () w
  · exact Op.settles_pure () w

theorem settles_pushAcceptLanguages : (pushAcceptLanguages b h : Op σ Unit).Settles I [] := by
  intro w
  refine Op.settlesFrom_get_bind ?_
  split
  · refine Op.settlesFrom_keeping (.inr rfl) (by simp [Ref.object]) ?_
    exact (Op.settles_readHost h _).bind fun _ => Service.settles_store _ _ _
  · exact Op.settles_pure () w

theorem settles_updateEverything : (updateEverything b : Op σ Unit).Settles I [] := by
  refine settles_withHost b fun h => (settles_pushPageScale b h).bind fun _ => ?_
  refine (settles_pushPreferences b).bind fun _ => ?_
  exact (settles_pushUserAgent b h).bind fun _ => settles_pushFormData b h

theorem settles_resetScroll : (resetScroll b : Op σ Unit).Settles I [] := by
  refine settles_ifHosted b fun w => Op.settlesFrom_get_bind ?_
  split
  · exact Op.settles_call _ w
  · exact Op.settles_pure () w

theorem settles_update (channel : Channel) : (update channel b : Op σ Unit).Settles I [] := by
  cases channel with
  | preferences => exact settles_ifHosted b (settles_pushPreferences b)
  | userAgent => exact settles_withHost b (settles_pushUserAgent b)
  | pageScale => exact settles_withHost b (settles_pushPageScale b)
  | formData => exact settles_withHost b (settles_pushFormData b)
  | acceptLanguages => exact settles_withHost b (settles_pushAcceptLanguages b)
  | everything => exact settles_updateEverything b

theorem settles_perform (action : BridgeAction) : (action.perform b : Op σ Unit).Settles I [] := by
  cases action with
  | updateEverything | renderViewCreated => exact settles_updateEverything b
  | updatePageScale => exact settles_update b .pageScale
  | updatePreferences => exact settles_update b .preferences
  | updateUserAgent => exact settles_update b .userAgent
  | updateFormData => exact settles_update b .formData
  | updateAcceptLanguages => exact settles_update b .acceptLanguages
  | resetScroll => exact settles_resetScroll b

theorem settles_populate (p : Preferences) : (populate b p : Op σ Preferences).Settles I [] := by
  intro w
  refine Op.settlesFrom_get_bind (Op.settlesFrom_get_bind ?_)
  split
  · next halive =>
    refine Op.settlesFrom_keeping (.inl halive) (by simp [Ref.object]) fun v => ?_
    refine Op.settlesFrom_get_bind ?_
    split
    · refine (Op.settles_readHost _ _).bind (fun host u => ?_) v
      exact Op.settlesFrom_get_bind (((Op.settles_call _).bind fun _ => Op.settles_pure _) u)
    · exact Op.settles_pure _ v
  · exact Op.settles_pure _ w

theorem settles_populateFor (c : ContextRef) (s : SessionRef) (p : Preferences) :
    (populateFor c s p : Op σ _).Settles I [] := fun w =>
  Op.settlesFrom_get_bind <| Op.settles_upgradeIn_bind (.registry c)
    (g := fun v => (v.contexts c).entered? (w.sessions s).id) (fun _ _ => rfl) (Op.settles_pure p)
    (fun b => (settles_populate b p).bind_later fun _ =>
      (Op.settles_release .call b.object).bind fun _ => Op.settles_pure _) w

end Bridge

/-! ## Hosts -/

namespace Host

theorem settles_attach (h : HostRef) (b : BridgeRef) : (attach h b : Op σ Unit).Settles I [] := fun w => by
  refine Op.settlesFrom_writeCell (fun _ _ => rfl) rfl rfl (fun _ => rfl) (I.of_undisturbed ?_)
  exact (World.undisturbed_attached w h (some b)).trans (.of_hosts (Nat.le_refl _) rfl rfl)

/-- Settings that are stored must respect the tenet, and are then carried to the engine. -/
theorem settles_update (h : HostRef) (channel : Channel) {f : Settings → Settings}
    (hkept : ∀ w : World σ, I.holds w → I.holds (w.changeHost h fun host => host.withSettings (f host.settings))) :
    (update h channel f : Op σ Unit).Settles I [] := by
  have hstored : (Op.writeCell (.hostSettings h)
      (·.changeHost h fun host => host.withSettings (f host.settings)) : Op σ Unit).Settles I [] := fun w =>
    Op.settlesFrom_writeCell (fun _ _ => rfl) rfl rfl (fun _ => rfl) (hkept w)
  refine hstored.bind fun _ => ?_
  exact Op.settles_upgradeIn_bind (.hostAttached h) (g := fun w => (w.hosts h).attached) (fun _ _ => rfl)
    (Op.settles_pure ()) fun b => (Bridge.settles_update b channel).bind_later fun _ => Op.settles_release .call _

theorem settles_set (h : HostRef) {change : Change} (hkept : change.isTaken = true → ∀ w : World σ, I.holds w →
      I.holds (w.changeHost h fun host => host.withSettings (change.apply host.settings))) :
    (set h change : Op σ Unit).Settles I [] := by
  unfold set
  split
  · next htaken => exact settles_update h _ (hkept htaken)
  · exact Op.settles_pure ()

theorem settles_setSettings (h : HostRef) {s : Settings} (hkept : s.validate = .ok () → ∀ w : World σ, I.holds w →
      I.holds (w.changeHost h (·.withSettings s))) :
    (setSettings h s : Op σ _).Settles I [] := by
  unfold setSettings Settings.validated
  cases hvalid : s.validate with
  | ok _ => exact (settles_update h .everything (hkept hvalid)).bind fun _ => Op.settles_pure _
  | error violation => exact Op.settles_pure _

end Host

end SettingsRelay
