import SettingsRelay.Proofs.Balance
import SettingsRelay.Proofs.Confinement
import SettingsRelay.Proofs.Offer

/-!
# Isolation

Sessions share contexts, services, clients and hosts, and the bridges through which they are given settings are
found by their ids. As long as living sessions have ids of their own, nothing that is done through the bridge of
one of them reaches another: it is confined to the realm of that bridge, if whoever is called does nothing but
have preferences filled in for the same session. The only calls are for that session and to the service of the
bridge's context, there for the languages.

What a session is given when its preferences are filled in follows from its own bridge alone. So it is given the
same as before, unless it is its own host that was changed, and two worlds that differ only elsewhere give it
the same, whatever happens during the call.
-/

namespace SettingsRelay

variable {σ : Type}

open World (Agrees Confined EvolvesBy Follows Move Registered Serves)

/-! ## Ids over whole runs -/

namespace World

variable {w v : World σ}

/-- The sessions there were have the same ids, and no bridge was made. -/
structure SameLabels (w v : World σ) : Prop where
  id : ∀ s : SessionRef, s.index < w.next → (v.sessions s).id = (w.sessions s).id
  made : v.made = w.made

namespace SameLabels

theorem of_same (hsessions : v.sessions = w.sessions) (hmade : v.made = w.made) : SameLabels w v where
  id s _ := by rw [hsessions]
  made := hmade

theorem of_sheds {holder : Holder} {o : Object} (h : Sheds holder o w v) : SameLabels w v :=
  .of_same (by rw [h.same]) (by rw [h.same])

theorem of_changeSession {s : SessionRef} {f : Session → Session} (hf : ∀ x, (f x).id = x.id)
    (hsessions : v.sessions = (w.changeSession s f).sessions) (hmade : v.made = w.made) : SameLabels w v where
  id t _ := by
    rw [hsessions]
    exact congr_replaceAt (hf _) t
  made := hmade

end SameLabels

/-- Sessions keep their ids, and bridges are made for living sessions. -/
theorem Move.label_cases {call : Option Call} (m : Move w call v) :
    SameLabels w v ∨
    ∃ (c : ContextRef) (s : SessionRef) (h : HostRef), w.isAlive s.object = true ∧ v = w.makeBridge c s h := by
  cases m with
  | carry h =>
    cases h with
    | call | lease | hold | saveFormData => exact .inl (.of_same rfl rfl)
    | agent s agent =>
      exact .inl (.of_changeSession (f := fun session => { session with userAgent := some agent })
        (fun _ => rfl) rfl rfl)
    | entry s index overriding =>
      exact .inl (.of_changeSession
        (f := fun session => { session with entries := session.entries.set index overriding }) (fun _ => rfl) rfl rfl)
    | letGo o _ => exact .inl (.of_sheds (sheds_releaseQuietly w .call o))
  | remodel s hasExtension hasViewHost entries =>
    exact .inl (.of_changeSession (f := fun session => { session with hasExtension, hasViewHost, entries })
      (fun _ => rfl) rfl rfl)
  | engage s client _ =>
    rw [acquire?_eq]
    exact .inl (.of_changeSession (f := fun session => { session with client }) (fun _ => rfl) rfl rfl)
  | dismiss s c => exact .inl (.of_sheds (sheds_releaseClient w _ c))
  | makeContext _ service _ | makeClient service _ => cases service <;> exact .inl (.of_same rfl rfl)
  | makeSession session _ =>
    rw [making, acquire?_eq]
    have hne : ∀ s : SessionRef, s.index < w.next → s ≠ ⟨w.next⟩ := fun s hs heq => hs.ne (congrArg Ref.index heq)
    exact .inl ⟨fun s hs => congrArg Session.id (replaceAt_of_ne (hne s hs)), rfl⟩
  | makeBridge c s h _ halive => exact .inr ⟨c, s, h, halive, rfl⟩
  | drop o _ => exact .inl (.of_sheds (sheds_releaseQuietly w .embedder o))
  | bury holder b _ _ => exact .inl (.of_same (by rw [parted_eq, bury_eq]) (by rw [parted_eq, bury_eq]))
  | part b c => exact .inl (.of_sheds (sheds_releaseContext w _ c))
  | store | set | replace | attach | customize | view | suggestions | delegate | makeService | makeHost
  | makeCustomHost | makeView | makeDelegate | keep | withdraw => exact .inl (.of_same rfl rfl)

structure Labelled (w : World σ) : Prop where
  registered : Registered w
  session_lt : ∀ s : SessionRef, w.isAlive s.object = true → s.index < w.next
  label : ∀ b ∈ w.made, (w.bridges b).session.index < w.next ∧
    (w.sessions (w.bridges b).session).id = (w.bridges b).sessionId

namespace Labelled

theorem of_move (hw : Labelled w) {call : Option Call} (m : Move w call v) : Labelled v where
  registered := hw.registered.of_move m
  session_lt s halive := by
    rcases m.isAlive_of_alive (by simp [Ref.object]) halive with hbefore | ⟨hindex, hlt⟩
    · exact (hw.session_lt s hbefore).trans_le m.next_le
    · exact (show s.index = w.next from hindex) ▸ hlt
  label := by
    rcases m.label_cases with hsame | ⟨c, s, h, halive, rfl⟩
    · rw [hsame.made]
      intro b hb
      obtain ⟨hlt, hlabel⟩ := hw.label b hb
      rw [(Follows.of_move hw.registered m).bridges b hb]
      exact ⟨hlt.trans_le m.next_le, (hsame.id _ hlt).trans hlabel⟩
    · intro b hb
      rcases List.mem_cons.1 hb with rfl | hb
      · rw [bridges_makeBridge_self]
        exact ⟨(hw.session_lt s halive).trans_le (Nat.le_succ _), rfl⟩
      · obtain ⟨hlt, hlabel⟩ := hw.label b hb
        rw [hw.registered.bridges_makeBridge hb]
        exact ⟨hlt.trans_le (Nat.le_succ _), hlabel⟩

theorem of_reached {note : Notes σ} {start : σ} (h : w.Reached note start) : Labelled w := by
  have hnoted : ∀ c (v : World σ), Labelled v → Labelled (v.noted note c) := fun _ _ hv =>
    ⟨⟨hv.registered.entered, hv.registered.single, hv.registered.made_of_alive, hv.registered.made_nodup,
      hv.registered.made_lt, hv.registered.context_lt, hv.registered.alive_lt⟩, hv.session_lt, hv.label⟩
  have hevolves : Evolves note { embedder := start } w := h
  refine hevolves.invariant (fun _ _ _ m hv => hv.of_move m) hnoted ⟨.initial start, fun s hs => ?_, ?_⟩
  · simp [isAlive] at hs
  · exact List.forall_mem_nil _

theorem orderly (hw : Labelled w) (hdistinct : ∀ s t : SessionRef, w.isAlive s.object = true →
      w.isAlive t.object = true → (w.sessions s).id = (w.sessions t).id → s = t) (b : BridgeRef)
    (host : Option HostRef) : w.Orderly (w.realm b host) where
  distinct := hdistinct
  entry c id b hb := by
    obtain ⟨_, hid, halive⟩ := hw.registered.of_entered hb
    exact (hw.label b (hw.registered.made_of_alive b halive)).2.trans hid
  receiver := rfl

end Labelled

end World

/-! ## What is done through a bridge -/

/-- Whether a deed is done through a bridge: by itself, by the context that has it for a session, or by the host to
which it is attached. -/
def Deed.IsThrough (w : World σ) (b : BridgeRef) : Deed → Prop
  | act a _ | populate a _ => a = b
  | populateFor c s _ => w.newest? c (w.sessions s).id = some b
  | set h _ | setSettings h _ => (w.hosts h).attached = some b
  | _ => False

def Deed.changedHost? : Deed → Option HostRef
  | set h _ | setSettings h _ => some h
  | _ => none

def Deed.IsPopulation (s : SessionRef) (deed : Deed) : Prop := ∃ c p, deed = populateFor c s p

namespace Op

variable {r : Realm} {w : World Diary}

theorem staysFrom_use {o : Object} {body : Op Diary Unit}
    (hbody : w.isAlive o = true → body.StaysFrom r (w.acquire .call o)) : (use o body).StaysFrom r w := by
  refine staysFrom_get_bind ?_
  split
  · next halive => exact staysFrom_holding halive (hbody halive)
  · exact stays_pure () w

theorem staysFrom_useBridge {b : BridgeRef} {body : Op Diary Unit} (hbody : body.StaysFrom r w)
    (hkept : body.StaysFrom r (w.acquire .call b.object)) : (useBridge b body).StaysFrom r w := by
  refine staysFrom_get_bind ?_
  split
  · next halive => exact staysFrom_holding halive hkept
  · split
    · exact hbody
    · exact stays_pure () w

theorem staysFrom_useMemory {h : HostRef} {body : Op Diary Unit}
    (hbody : body.StaysFrom r (w.acquire .call h.object)) : (useMemory h body).StaysFrom r w := by
  refine staysFrom_use fun _ => staysFrom_get_bind ?_
  split
  · exact hbody
  · exact stays_pure () _

end Op

namespace Deed

variable {w : World Diary} {b : BridgeRef}

theorem staysFrom_perform (hw : Registered w) {deed : Deed} (hthrough : deed.IsThrough w b) :
    (deed.perform : Op Diary Unit).StaysFrom (w.realm b deed.changedHost?) w := by
  have hserves : Serves (w.realm b deed.changedHost?) b w := w.serves_realm b _
  cases deed with
  | act a action =>
    cases hthrough
    exact Op.staysFrom_useBridge (Bridge.staysFrom_perform hserves action)
      (Bridge.staysFrom_perform hserves.of_same action)
  | populate a p =>
    cases hthrough
    have hkept : Serves (w.realm b none) b (w.acquire .call b.object) := hserves.of_same
    exact Op.staysFrom_useBridge (Bridge.staysFrom_populate p fun _ => hserves.session).ignore
      (Bridge.staysFrom_populate p fun _ => hkept.session).ignore
  | populateFor c s p =>
    refine Op.staysFrom_use fun _ => Op.staysFrom_use fun _ => (Bridge.staysFrom_populateFor c s p ?_).ignore
    intro a ha _
    -- only the newest bridge is ever entered
    change (w.contexts c).entered? (w.sessions s).id = some a at ha
    rw [hw.entered, World.living?, Option.filter_eq_some_iff] at ha
    cases hthrough.symm.trans ha.1
    exact hserves.session
  | set h change =>
    refine Op.staysFrom_useMemory (Host.staysFrom_set change rfl fun a ha => ?_)
    cases hthrough.symm.trans ha
    exact hserves.of_same
  | setSettings h s =>
    refine Op.staysFrom_useMemory (Op.StaysFrom.ignore (Host.staysFrom_setSettings s rfl fun a ha => ?_))
    cases hthrough.symm.trans ha
    exact hserves.of_same
  | _ => exact hthrough.elim

theorem IsPopulation.staysFrom_perform {r : Realm} {deed : Deed} (hdeed : deed.IsPopulation r.owner) :
    (deed.perform : Op Diary Unit).StaysFrom r w := by
  obtain ⟨c, p, rfl⟩ := hdeed
  refine Op.staysFrom_use fun _ => Op.staysFrom_use fun _ => ?_
  exact (Bridge.staysFrom_populateFor_owner c p World.isAlive_acquire_self).ignore

end Deed

theorem Reaction.staysIn_of_noted {r : Realm} {react : Reaction Diary}
    (h : ∀ c u, (u.noted Diary.note (some c)).Orderly r → Confined r (u.noted Diary.note (some c)) (react c u)) :
    Reaction.StaysIn r react := fun c u hu hc =>
  have hnoted : Confined r u (u.noted Diary.note (some c)) := .noted (by simpa using hc)
  hnoted.trans (h c u (hu.of_confined hnoted))

/-- Whoever does nothing but have preferences filled in for the owner of a realm keeps to it, and so does whoever
is called then, to any depth. -/
theorem World.EvolvesBy.confined {r : Realm} {w v : World Diary}
    (h : EvolvesBy (fun _ deed => deed.IsPopulation r.owner) Diary.note w v) (hw : w.Orderly r) : Confined r w v := by
  induction h with
  | still w => exact .refl r w
  | deed _ deed hdeed react _ ih hduring =>
    have hbefore := ih hw
    have hafter := hdeed.staysFrom_perform react (Reaction.staysIn_of_noted hduring) (hw.of_confined hbefore)
    exact (hbefore.trans hafter).trans (.noted (by simp))

/-- Whatever is confined to a realm makes no difference to a session whose host it leaves alone. -/
theorem World.Confined.agrees {r : Realm} {w v : World Diary} (h : Confined r w v) (c : ContextRef) (s : SessionRef)
    (hhost : ∀ b, w.newest? c (w.sessions s).id = some b → r.host ≠ some (w.bridges b).host) : Agrees c s w v where
  id := h.id_eq s
  newest := newest?_congr h.bridges h.made c _
  alive _ _ := h.isAlive _
  extension b _ := by
    unfold Bridge.extension?
    dsimp only
    rw [h.bridges, h.isAlive, h.receiver, h.hasExtension]
  host b _ := by rw [h.bridges, h.isAlive]
  particulars b hb := by
    rw [World.particulars, World.particulars, h.bridges, h.contexts, h.hosts _ (hhost b hb)]

/-- Where living sessions have ids of their own, whatever is done through a bridge is confined to its realm, and what
a session is given depends on nothing but its newest bridge. -/
theorem sessions_are_isolated :
    (∀ {w : World Diary} {b : BridgeRef} (deed : Deed) {react : Reaction Diary}, w.Reached Diary.note [] →
      (∀ s t : SessionRef, w.isAlive s.object = true → w.isAlive t.object = true →
        (w.sessions s).id = (w.sessions t).id → s = t) →
      deed.IsThrough w b →
      (∀ c u, EvolvesBy (fun _ d => d.IsPopulation (w.bridges b).session) Diary.note (u.noted Diary.note (some c))
        (react c u)) →
      let v := (deed.perform.outcome react w).2.noted Diary.note none
      Confined (w.realm b deed.changedHost?) w v ∧
      ∀ c s, (∀ a, w.newest? c (w.sessions s).id = some a → deed.changedHost? ≠ some (w.bridges a).host) →
        ∀ (before after : Reaction Diary) (p : Preferences),
          ((Bridge.populateFor c s p).outcome after v).1 = ((Bridge.populateFor c s p).outcome before w).1 ∧
          ((Bridge.populateFor c s p).calls after v).filter Call.isTextZoom =
            ((Bridge.populateFor c s p).calls before w).filter Call.isTextZoom) ∧
    ∀ {x y : World Diary} {c : ContextRef} {s : SessionRef}, x.Reached Diary.note [] → y.Reached Diary.note [] →
      ∀ w ∈ x.seen, ∀ v ∈ y.seen, Agrees c s w v → ∀ (one other : Reaction Unit) (p : Preferences),
        ((Bridge.populateFor c s p).outcome other v).1 = ((Bridge.populateFor c s p).outcome one w).1 ∧
        ((Bridge.populateFor c s p).calls other v).filter Call.isTextZoom =
          ((Bridge.populateFor c s p).calls one w).filter Call.isTextZoom := by
  constructor
  · intro w b deed react hw hdistinct hthrough hreact v
    have hlabelled : World.Labelled w := .of_reached hw
    have horderly := hlabelled.orderly hdistinct b deed.changedHost?
    have hstays : Reaction.StaysIn (w.realm b deed.changedHost?) react :=
      Reaction.staysIn_of_noted fun c u => (hreact c u).confined
    have hdone := Deed.staysFrom_perform hlabelled.registered hthrough react hstays horderly
    have hconfined : Confined (w.realm b deed.changedHost?) w v := hdone.trans (.noted (by simp))
    have hafter : v.Reached Diary.note [] := .deed hw deed react fun c u => (hreact c u).evolves
    refine ⟨hconfined, fun c s hhost before after p => ?_⟩
    have hagrees := hconfined.agrees c s hhost
    exact Bridge.populateFor_congr (hagrees.offer?_eq hlabelled.registered (.of_reached hafter)) before after p
  · intro x y c s hx hy w hw v hv hagrees one other p
    have hseen : Registered w ∧ Registered v :=
      ⟨(World.Chronicled.of_reached hx).registered w hw, (World.Chronicled.of_reached hy).registered v hv⟩
    exact Bridge.populateFor_congr (hagrees.offer?_eq hseen.1 hseen.2) one other p

/-- Two sessions share a context, a service and a client, and all settings of one are replaced. The other keeps what
it has, and is given what it is given in a run in which the first is quite different. -/
theorem neighbour_keeps_settings : ∃ (w y : World Diary) (react : Reaction Diary),
    w.Reached Diary.note [] ∧ y.Reached Diary.note [] ∧
    (let v := ((Deed.setSettings ⟨5⟩ { userAgent := some "mine", textSizePercent := 150 }).perform.outcome react
        w).2.noted Diary.note none
     (v.sessions ⟨3⟩).userAgent = some "mine" ∧ v.sessions ⟨4⟩ = w.sessions ⟨4⟩ ∧ v.hosts ⟨6⟩ = w.hosts ⟨6⟩ ∧
     v.contexts = w.contexts ∧ v.shares = w.shares ∧
     v.embedder.any (fun page => page.1.any Call.isTextZoom) = true ∧
     (∀ page ∈ v.embedder, page ∈ w.embedder ∨ ∀ c ∈ page.1, (w.realm ⟨7⟩ (some ⟨5⟩)).Admits c) ∧
     ((Bridge.populateFor ⟨1⟩ ⟨4⟩ {}).outcome react v).1 = ((Bridge.populateFor ⟨1⟩ ⟨4⟩ {}).outcome react w).1) ∧
    (∀ other : Reaction Unit, ((Bridge.populateFor ⟨1⟩ ⟨4⟩ {}).outcome other y.bare).1 =
      ((Bridge.populateFor ⟨1⟩ ⟨4⟩ {}).outcome other w.bare).1) ∧
    (w.sessions ⟨3⟩).hasExtension ≠ (y.sessions ⟨3⟩).hasExtension := by
  let deeds (extension : Bool) (agent : String) : List Deed :=
    [.makeService, .makeContext {} (some ⟨0⟩), .makeClient none,
      .makeSession { id := ⟨7⟩, client := some ⟨2⟩, entries := [false], hasExtension := extension },
      .makeSession { id := ⟨8⟩, client := some ⟨2⟩, entries := [false, true] },
      .makeHost { userAgent := some agent }, .makeHost {}, .makeBridge ⟨1⟩ ⟨3⟩ ⟨5⟩, .makeBridge ⟨1⟩ ⟨4⟩ ⟨6⟩,
      .attach ⟨5⟩ ⟨7⟩]
  let filling : List Deed := [.populateFor ⟨1⟩ ⟨3⟩ {}]
  let react : Reaction Diary := fun c u => World.after Diary.note filling (u.noted Diary.note (some c))
  let w : World Diary := World.after Diary.note (deeds true "relay") { embedder := [] }
  let y : World Diary := World.after Diary.note (deeds false "other") { embedder := [] }
  have hw : w.Reached Diary.note [] := World.evolves_after Diary.note _ (.still _)
  have hy : y.Reached Diary.note [] := World.evolves_after Diary.note _ (.still _)
  have hdistinct : ∀ s t : SessionRef, w.isAlive s.object = true → w.isAlive t.object = true →
      (w.sessions s).id = (w.sessions t).id → s = t := by
    have hsessions : ∀ share ∈ w.shares, share.object.kind = .session →
        share.object.index = 3 ∨ share.object.index = 4 := by decide +kernel
    have hids : (w.sessions ⟨3⟩).id ≠ (w.sessions ⟨4⟩).id := by decide +kernel
    have halive : ∀ s : SessionRef, w.isAlive s.object = true → s = ⟨3⟩ ∨ s = ⟨4⟩ := by
      rintro ⟨n⟩ hs
      obtain ⟨holder, hmem⟩ := World.isAlive_iff.1 hs
      exact (hsessions _ hmem rfl).imp (congrArg Ref.mk) (congrArg Ref.mk)
    intro s t hs ht hid
    rcases halive s hs with rfl | rfl <;> rcases halive t ht with rfl | rfl
    · rfl
    · exact absurd hid hids
    · exact absurd hid.symm hids
    · rfl
  have howner : (w.bridges ⟨7⟩).session = ⟨3⟩ := by decide +kernel
  have hfilling : ∀ deed ∈ filling, ∀ _ : World Diary, deed.IsPopulation (w.bridges ⟨7⟩).session := by
    rw [howner]
    exact List.forall_mem_singleton.2 fun _ => ⟨⟨1⟩, {}, rfl⟩
  have hreact : ∀ c u, EvolvesBy (fun _ d => d.IsPopulation (w.bridges ⟨7⟩).session) Diary.note
      (u.noted Diary.note (some c)) (react c u) := fun c u =>
    World.evolvesBy_after Diary.note filling hfilling (.still _)
  have hattached : (w.hosts ⟨5⟩).attached = some ⟨7⟩ := by decide +kernel
  have hnewest : w.newest? ⟨1⟩ (w.sessions ⟨4⟩).id = some ⟨8⟩ := by decide +kernel
  have hagrees : Agrees ⟨1⟩ ⟨4⟩ w.bare y.bare := by
    have hbare : w.bare.newest? ⟨1⟩ (w.bare.sessions ⟨4⟩).id = some ⟨8⟩ := by decide +kernel
    refine ⟨by decide +kernel, by decide +kernel, ?_, ?_, ?_, ?_⟩ <;>
    · rw [hbare]
      rintro _ ⟨⟩
      decide +kernel
  obtain ⟨hstep, hgiven⟩ := sessions_are_isolated
  obtain ⟨hconfined, hsame⟩ :=
    hstep (.setSettings ⟨5⟩ { userAgent := some "mine", textSizePercent := 150 }) hw hdistinct hattached hreact
  obtain ⟨pages, hpages, hadmitted⟩ := hconfined.diary
  refine ⟨w, y, react, hw, hy, ⟨by decide +kernel, hconfined.sessions ⟨4⟩ (by decide +kernel),
    hconfined.hosts ⟨6⟩ (by simp [Deed.changedHost?, World.realm]), hconfined.contexts, hconfined.shares,
    by decide +kernel, fun page hpage => ?_, ?_⟩, fun other => ?_, by decide +kernel⟩
  · rw [hpages] at hpage
    exact (List.mem_append.1 hpage).symm.imp_right (hadmitted page)
  · refine (hsame ⟨1⟩ ⟨4⟩ (fun a ha => ?_) react react {}).1
    cases hnewest.symm.trans ha
    have hhost : (w.bridges ⟨8⟩).host = ⟨6⟩ := by decide +kernel
    rw [hhost]
    simp [Deed.changedHost?]
  · exact (hgiven hw hy w.bare List.mem_cons_self y.bare List.mem_cons_self hagrees other other {}).1

end SettingsRelay
