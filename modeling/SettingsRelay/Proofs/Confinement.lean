import SettingsRelay.Proofs.Realm

/-!
# Confinement

Every operation through a bridge keeps to the realm of that bridge, as long as whoever is called meanwhile does.
There is one lemma for each way to put operations together and one for each operation, which is told what belongs
to the realm. An operation returns all shares that it takes, so that the realm is the same for whatever is done
after it.
-/

namespace SettingsRelay

variable {α β : Type}

open World (Confined Serves)

/-- Whoever is called in a realm keeps to it. -/
def Reaction.StaysIn (r : Realm) (react : Reaction Diary) : Prop :=
  ∀ c w, w.Orderly r → r.Admits c → Confined r w (react c w)

namespace Op

/-- An operation that is carried out in a world keeps to a realm. -/
def StaysFrom (r : Realm) (w : World Diary) (op : Op Diary α) : Prop :=
  ∀ react, Reaction.StaysIn r react → w.Orderly r → Confined r w (op.outcome react w).2

def Stays (r : Realm) (op : Op Diary α) : Prop := ∀ w, op.StaysFrom r w

variable {r : Realm} {w : World Diary}

/-! ## How operations are put together -/

theorem stays_pure (x : α) : (pure x : Op Diary α).Stays r := fun w _ _ _ => .refl r w

theorem staysFrom_get_bind {next : World Diary → Op Diary α} (h : (next w).StaysFrom r w) :
    (get >>= next).StaysFrom r w := h

theorem staysFrom_modify {f : World Diary → World Diary} (hf : Confined r w (f w)) :
    (modify f : Op Diary Unit).StaysFrom r w := fun _ _ _ => hf

theorem StaysFrom.bind {op : Op Diary α} {next : α → Op Diary β} (h : op.StaysFrom r w)
    (hnext : ∀ x v, Confined r w v → (next x).StaysFrom r v) : (op >>= next).StaysFrom r w := by
  intro react hreact hw
  have hfirst := h react hreact hw
  rw [outcome_bind]
  exact hfirst.trans (hnext _ _ hfirst react hreact (hw.of_confined hfirst))

theorem Stays.bind {op : Op Diary α} {next : α → Op Diary β} (h : op.Stays r) (hnext : ∀ x, (next x).Stays r) :
    (op >>= next).Stays r := fun w => (h w).bind fun x v _ => hnext x v

theorem StaysFrom.ignore {op : Op Diary α} (h : op.StaysFrom r w) : (do let _ ← op : Op Diary Unit).StaysFrom r w :=
  h.bind fun _ v _ => stays_pure () v

theorem stays_call {c : Call} (hc : r.Admits c) : (call c : Op Diary Unit).Stays r :=
  fun w _ hreact hw => hreact c w hw hc

theorem confined_leased (w : World Diary) (l : Lease) : Confined r w (w.leased l) := .of_conflicts r rfl

theorem stays_readCell (cell : Cell) (f : World Diary → α) : (readCell cell f).Stays r := by
  intro w react _ _
  rw [outcome_readCell]
  exact confined_leased w _

theorem stays_readHost (h : HostRef) (f : Host → α) : (readHost h f : Op Diary α).Stays r := by
  intro w
  refine staysFrom_get_bind ?_
  split
  · exact stays_readCell _ _ w
  · exact stays_pure _ w

theorem staysFrom_writeCell {cell : Cell} {f : World Diary → World Diary}
    (hf : ∀ w l, f (w.openLease l) = (f w).openLease l) (hconfined : Confined r w (f w)) :
    (writeCell cell f).StaysFrom r w := by
  intro react _ _
  rw [outcome_writeCell react w cell f (hf w)]
  exact hconfined.trans (confined_leased _ _)

theorem staysFrom_keeping {o : Object} {body : Op Diary α} (halive : w.isAlive o = true ∨ o.kind = .service)
    (hbody : body.StaysFrom r (w.acquire .call o)) : (keeping o body).StaysFrom r w := by
  intro react hreact hw
  rw [outcome_keeping]
  exact (hbody react hreact (hw.acquire halive)).letGo halive

theorem confined_holding {o : Object} {body : Op Diary α} {react : Reaction Diary} (hreact : Reaction.StaysIn r react)
    (hw : w.Orderly r) (halive : w.isAlive o = true) (hbody : body.StaysFrom r (w.acquire .call o)) :
    Confined r w ((release .call o).outcome react (body.outcome react (w.acquire .call o)).2).2 :=
  (hbody react hreact (hw.acquire (.inl halive))).release halive react

theorem staysFrom_holding {o : Object} {body : Op Diary α} (halive : w.isAlive o = true)
    (hbody : body.StaysFrom r (w.acquire .call o)) : (holding o body).StaysFrom r w :=
  fun _ hreact hw => confined_holding hreact hw halive hbody

end Op

/-! ## The engine -/

section Engine

variable {r : Realm}

theorem Session.stays_overrideUserAgent (agent : String) :
    (overrideUserAgent r.session agent : Op Diary Unit).Stays r := fun _ =>
  (Op.staysFrom_modify (.changeSession fun x => ⟨some agent, x.entries, rfl⟩)).bind fun _ v _ =>
    Op.stays_call (c := .userAgent r.session agent) rfl v

theorem Session.stays_markEntry (index : Nat) (overriding : Bool) :
    (markEntry r.session index overriding : Op Diary Unit).Stays r := fun _ =>
  (Op.staysFrom_modify (.changeSession fun x => ⟨x.userAgent, x.entries.set index overriding, rfl⟩)).bind fun _ v _ =>
    Op.stays_call (c := .entry r.session index overriding) rfl v

theorem Session.stays_markEntries (overriding : Bool) (indices : List Nat) :
    (markEntries r.session overriding indices : Op Diary Unit).Stays r := by
  induction indices with
  | nil => exact Op.stays_pure ()
  | cons index rest ih => exact (stays_markEntry index overriding).bind fun _ => ih

theorem Service.stays_store {p : ServiceRef} (hp : r.service = some p) (value : String) :
    (store p acceptLanguagesKey value : Op Diary Unit).Stays r := fun _ =>
  (Op.staysFrom_modify (.changeService hp value)).bind fun _ v _ =>
    Op.stays_call (c := .stored p acceptLanguagesKey value) ⟨hp, rfl⟩ v

theorem Client.stays_setSaveFormData {c : ClientRef} (hc : r.client = some c) (enabled : Bool) :
    (setSaveFormData c enabled : Op Diary Unit).Stays r := fun _ => Op.staysFrom_modify (.changeClient hc enabled)

end Engine

/-! ## Bridges -/

namespace Bridge

variable {r : Realm} {w : World Diary} {b : BridgeRef}

theorem staysFrom_withHost {body : HostRef → Op Diary Unit}
    (hbody : (body (w.bridges b).host).StaysFrom r (w.acquire .call (w.bridges b).host.object)) :
    (withHost b body).StaysFrom r w := by
  refine Op.staysFrom_get_bind (Op.staysFrom_get_bind ?_)
  split
  · next halive => exact Op.staysFrom_keeping (.inl halive) hbody
  · exact Op.stays_pure () w

theorem staysFrom_ifHosted {body : Op Diary Unit} (hbody : body.StaysFrom r w) : (ifHosted b body).StaysFrom r w := by
  refine Op.staysFrom_get_bind (Op.staysFrom_get_bind ?_)
  split
  · exact hbody
  · exact Op.stays_pure () w

theorem staysFrom_withSession {body : SessionRef → Op Diary Unit}
    (hbody : (body (w.bridges b).session).StaysFrom r (w.acquire .call (w.bridges b).session.object)) :
    (withSession b body).StaysFrom r w := by
  refine Op.staysFrom_get_bind (Op.staysFrom_get_bind ?_)
  split
  · next halive => exact Op.staysFrom_keeping (.inl halive) hbody
  · exact Op.stays_pure () w

theorem extension?_eq_some {s : SessionRef} (h : extension? w b = some s) :
    w.isAlive (w.bridges b).session.object = true ∧ w.receiver (w.bridges b).session = s := by
  unfold extension? at h
  dsimp only at h
  split at h
  · next hboth =>
    rw [Bool.and_eq_true] at hboth
    exact ⟨hboth.1, Option.some_inj.1 h⟩
  · cases h

section Served

variable (hb : Serves r b w) (h : HostRef)

include hb

theorem staysFrom_pushPageScale : (pushPageScale b h).StaysFrom r w := by
  refine Op.staysFrom_get_bind ?_
  split
  · next s hextension =>
    have hs : s = r.session := (extension?_eq_some hextension).2.symm.trans hb.session
    exact ((Op.stays_readHost _ _).bind fun scale => Op.stays_call (c := .pageScale s scale) hs) w
  · exact Op.stays_pure () w

theorem staysFrom_pushPreferences : (pushPreferences b).StaysFrom r w := by
  refine staysFrom_withSession (Op.staysFrom_get_bind ?_)
  dsimp only
  split
  · exact Op.stays_call (c := .preferencesChanged _) hb.session _
  · exact Op.stays_pure () _

theorem staysFrom_pushUserAgent : (pushUserAgent b h).StaysFrom r w := by
  have hmark : ∀ overriding, (do
      let count := ((← get).sessions r.session).entries.length
      Session.markEntries r.session overriding (List.range count) : Op Diary Unit).Stays r :=
    fun overriding v => Op.staysFrom_get_bind (Session.stays_markEntries overriding _ v)
  have hreceiver : (w.acquire .call (w.bridges b).session.object).receiver (w.bridges b).session = r.session :=
    hb.session
  refine staysFrom_withSession (Op.staysFrom_get_bind ?_)
  rw [hreceiver]
  refine ((Op.stays_readHost h _).bind fun agent => ?_) _
  cases agent with
  | none => exact hmark _
  | some agent => exact (Session.stays_overrideUserAgent agent).bind fun _ => hmark _

theorem staysFrom_pushFormData : (pushFormData b h).StaysFrom r w := by
  refine Op.staysFrom_get_bind ?_
  dsimp only
  split
  · split
    · next c hc =>
      exact ((Op.stays_readHost h _).bind fun save => Client.stays_setSaveFormData (hb.client c hc) save) w
    · exact Op.stays_pure () w
  · exact Op.stays_pure () w

theorem staysFrom_pushAcceptLanguages : (pushAcceptLanguages b h).StaysFrom r w := by
  refine Op.staysFrom_get_bind ?_
  split
  · next p hp =>
    refine Op.staysFrom_keeping (.inr rfl) ?_
    exact ((Op.stays_readHost h _).bind fun value => Service.stays_store (hb.service p hp) value) _
  · exact Op.stays_pure () w

theorem staysFrom_updateEverything : (updateEverything b).StaysFrom r w := by
  refine staysFrom_withHost ?_
  refine (staysFrom_pushPageScale hb.of_same _).bind fun _ v hv => ?_
  have hbv : Serves r b v := Serves.of_confined hb.of_same hv
  refine (staysFrom_pushPreferences hbv).bind fun _ u hu => ?_
  have hbu : Serves r b u := hbv.of_confined hu
  exact (staysFrom_pushUserAgent hbu _).bind fun _ x hx => staysFrom_pushFormData (hbu.of_confined hx) _

theorem staysFrom_resetScroll : (resetScroll b).StaysFrom r w := by
  refine staysFrom_ifHosted (Op.staysFrom_get_bind ?_)
  split
  · next s hextension =>
    have hs : s = r.session := (extension?_eq_some hextension).2.symm.trans hb.session
    exact Op.stays_call (c := .resetScroll s) hs w
  · exact Op.stays_pure () w

theorem staysFrom_update (channel : Channel) : (update channel b).StaysFrom r w := by
  cases channel with
  | preferences => exact staysFrom_ifHosted (staysFrom_pushPreferences hb)
  | userAgent => exact staysFrom_withHost (staysFrom_pushUserAgent hb.of_same _)
  | pageScale => exact staysFrom_withHost (staysFrom_pushPageScale hb.of_same _)
  | formData => exact staysFrom_withHost (staysFrom_pushFormData hb.of_same _)
  | acceptLanguages => exact staysFrom_withHost (staysFrom_pushAcceptLanguages hb.of_same _)
  | everything => exact staysFrom_updateEverything hb

theorem staysFrom_perform (action : BridgeAction) : (action.perform b).StaysFrom r w := by
  cases action with
  | updateEverything | renderViewCreated => exact staysFrom_updateEverything hb
  | updatePageScale => exact staysFrom_update hb .pageScale
  | updatePreferences => exact staysFrom_update hb .preferences
  | updateUserAgent => exact staysFrom_update hb .userAgent
  | updateFormData => exact staysFrom_update hb .formData
  | updateAcceptLanguages => exact staysFrom_update hb .acceptLanguages
  | resetScroll => exact staysFrom_resetScroll hb

end Served

/-- A bridge that fills in preferences zooms its session's render view and does nothing else. -/
theorem staysFrom_populate (p : Preferences) (hb : w.isAlive (w.bridges b).session.object = true →
      w.receiver (w.bridges b).session = r.session) : (populate b p).StaysFrom r w := by
  refine Op.staysFrom_get_bind (Op.staysFrom_get_bind ?_)
  split
  · next halive =>
    refine Op.staysFrom_keeping (.inl halive) (Op.staysFrom_get_bind ?_)
    split
    · next s hextension =>
      obtain ⟨hsession, hs⟩ := extension?_eq_some hextension
      have hother : (w.bridges b).host.object ≠ (w.bridges b).session.object := by simp [Ref.object]
      have hs : s = r.session := hs.symm.trans (hb ((World.isAlive_acquire_of_ne hother).symm.trans hsession))
      refine ((Op.stays_readHost _ _).bind fun host v => Op.staysFrom_get_bind ?_) _
      exact ((Op.stays_call (c := .textZoom s _) hs).bind fun _ => Op.stays_pure _) v
    · exact Op.stays_pure p _
  · exact Op.stays_pure p w

theorem staysFrom_populateFor (c : ContextRef) (s : SessionRef) (p : Preferences)
    (hb : ∀ b, (w.contexts c).entered? (w.sessions s).id = some b →
      w.isAlive (w.bridges b).session.object = true → w.receiver (w.bridges b).session = r.session) :
    (populateFor c s p).StaysFrom r w := by
  intro react hreact hw
  rw [populateFor, Op.outcome_get_bind, Op.outcome_bind, Registry.outcome_find?]
  cases hfound : w.living? ((w.contexts c).entered? (w.sessions s).id) with
  | none => exact Op.confined_leased w _
  | some b =>
    obtain ⟨hentered, halive⟩ := Option.filter_eq_some_iff.1 hfound
    let v := w.leased ⟨.registry c, false⟩
    have hv : Confined r w v := Op.confined_leased w _
    -- what is found was alive before, so that it does not end when it is let go
    refine hv.trans (Op.confined_holding (w := v) hreact (hw.of_confined hv) halive (staysFrom_populate p ?_))
    have hother : b.object ≠ (w.bridges b).session.object := by simp [Ref.object]
    exact fun hkept => hb b hentered ((World.isAlive_acquire_of_ne hother).symm.trans hkept)

/-- The owner's bridge is found under the owner's id. Among living sessions no other one has it. -/
theorem staysFrom_populateFor_owner (c : ContextRef) (p : Preferences) (halive : w.isAlive r.owner.object = true) :
    (populateFor c r.owner p).StaysFrom r w := by
  intro react hreact hw
  refine staysFrom_populateFor c r.owner p (fun b hentered hkept => ?_) react hreact hw
  rw [hw.distinct _ _ hkept halive (hw.entry c _ b hentered)]
  exact hw.receiver

end Bridge

/-! ## Hosts -/

namespace Host

variable {r : Realm} {w : World Diary} {h : HostRef}

theorem staysFrom_update (channel : Channel) (f : Settings → Settings) (hh : r.host = some h)
    (hb : ∀ b, (w.hosts h).attached = some b → Serves r b w) : (update h channel f : Op Diary Unit).StaysFrom r w := by
  have hstored : (Op.writeCell (.hostSettings h)
      (·.changeHost h fun host => host.withSettings (f host.settings)) : Op Diary Unit).StaysFrom r w :=
    Op.staysFrom_writeCell (fun _ _ => rfl) (.changeHost hh fun host => f host.settings)
  refine hstored.bind fun _ v hv react hreact hdistinct => ?_
  rw [Op.outcome_bind, outcome_attachedBridge?]
  cases hliving : v.living? (v.hosts h).attached with
  | none => exact Op.confined_leased v _
  | some b =>
    obtain ⟨hattached, halive⟩ := Option.filter_eq_some_iff.1 hliving
    rw [hv.attached] at hattached
    let u := v.leased ⟨.hostAttached h, false⟩
    have hu : Confined r v u := Op.confined_leased v _
    have hserves : Serves r b (u.acquire .call b.object) := Serves.of_same ((hb b hattached).of_confined hv)
    exact hu.trans (Op.confined_holding (w := u) hreact (hdistinct.of_confined hu) halive
      (Bridge.staysFrom_update hserves channel))

theorem staysFrom_set (change : Change) (hh : r.host = some h)
    (hb : ∀ b, (w.hosts h).attached = some b → Serves r b w) : (set h change : Op Diary Unit).StaysFrom r w := by
  unfold set
  split
  · exact staysFrom_update _ _ hh hb
  · exact Op.stays_pure () w

theorem staysFrom_setSettings (s : Settings) (hh : r.host = some h)
    (hb : ∀ b, (w.hosts h).attached = some b → Serves r b w) : (setSettings h s : Op Diary _).StaysFrom r w := by
  unfold setSettings
  cases s.validated with
  | ok s => exact (staysFrom_update _ _ hh hb).bind fun _ v _ => Op.stays_pure _ v
  | error refusal => exact Op.stays_pure _ w

end Host

end SettingsRelay
