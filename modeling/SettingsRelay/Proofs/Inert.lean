import SettingsRelay.Proofs.Application
import SettingsRelay.Proofs.Push

/-!
# Dead references

A bridge whose session or host is dead carries nothing. Its operations look at both references
before they touch anything, all but one: the update of the languages needs no session, and does not
ask for one. It stores the languages of a living host for a session that is gone.
-/

namespace SettingsRelay

variable {σ : Type} {α β : Type}

namespace Op

/-- An operation is inert if it changes nothing and returns, however calls are reacted to. A call
would show in the world that is left. -/
def Inert (op : Op σ α) (w : World σ) (x : α) : Prop := ∀ react, op.outcome react w = (x, w)

theorem Inert.bind {w : World σ} {op : Op σ α} {next : α → Op σ β} {x : α} {y : β}
    (h : op.Inert w x) (hnext : (next x).Inert w y) : (op >>= next).Inert w y := by
  intro react
  rw [outcome_bind, h react]
  exact hnext react

theorem Inert.keeping {w : World σ} {o : Object} {body : Op σ α} {x : α} (halive : w.isAlive o = true)
    (h : body.Inert (w.acquire .call o) x) : (keeping o body).Inert w x := by
  intro react
  rw [outcome_keeping, h react, World.releaseQuietly_acquire halive]

end Op

namespace Bridge

variable {w : World σ} {b : BridgeRef}

/-! ## Without a host -/

theorem inert_withHost {body : HostRef → Op σ Unit}
    (hbody : w.isAlive (w.bridges b).host.object = true →
      (body (w.bridges b).host).Inert (w.acquire .call (w.bridges b).host.object) ()) :
    (withHost b body).Inert w () := by
  intro react
  rw [withHost, Op.outcome_get_bind]
  dsimp only
  rw [Op.outcome_get_bind]
  split
  · next halive => exact (hbody halive).keeping halive react
  · rfl

theorem inert_ifHosted {body : Op σ Unit}
    (hbody : w.isAlive (w.bridges b).host.object = true → body.Inert w ()) :
    (ifHosted b body).Inert w () := by
  intro react
  rw [ifHosted, Op.outcome_get_bind, Op.outcome_get_bind]
  split
  · next halive => exact hbody halive react
  · rfl

/-! ## Without a session -/

section Session

variable (hsession : w.isAlive (w.bridges b).session.object = false)

include hsession

theorem extension?_of_dead : extension? w b = none := by
  simp [extension?, hsession]

theorem inert_withSession (body : SessionRef → Op σ Unit) : (withSession b body).Inert w () := by
  intro react
  rw [withSession, Op.outcome_get_bind]
  dsimp only
  rw [Op.outcome_get_bind, hsession, if_neg Bool.false_ne_true]
  rfl

theorem inert_pushPageScale (h : HostRef) : (pushPageScale b h).Inert w () := by
  intro react
  rw [pushPageScale, Op.outcome_get_bind, extension?_of_dead hsession]
  rfl

theorem inert_pushPreferences : (pushPreferences b).Inert w () := inert_withSession hsession _

theorem inert_pushUserAgent (h : HostRef) : (pushUserAgent b h).Inert w () :=
  inert_withSession hsession _

theorem inert_pushFormData (h : HostRef) : (pushFormData b h).Inert w () := by
  intro react
  rw [pushFormData, Op.outcome_get_bind]
  dsimp only
  rw [hsession, if_neg Bool.false_ne_true]
  rfl

end Session

/-! ## Without either -/

theorem session_dead_acquire_host (hsession : w.isAlive (w.bridges b).session.object = false) :
    (w.acquire .call (w.bridges b).host.object).isAlive
      ((w.acquire .call (w.bridges b).host.object).bridges b).session.object = false :=
  (World.isAlive_acquire_of_ne (by simp [Ref.object])).trans hsession

section Dead

variable (hdead : w.isAlive (w.bridges b).session.object = false ∨ w.isAlive (w.bridges b).host.object = false)

include hdead

theorem session_dead_of_host_alive (hhost : w.isAlive (w.bridges b).host.object = true) :
    w.isAlive (w.bridges b).session.object = false := by
  rcases hdead with hsession | hgone
  · exact hsession
  · rw [hhost] at hgone
    exact Bool.noConfusion hgone

theorem inert_withHost_of_dead {body : HostRef → Op σ Unit}
    (hbody : ∀ v : World σ, v.isAlive (v.bridges b).session.object = false → ∀ h, (body h).Inert v ()) :
    (withHost b body).Inert w () :=
  inert_withHost fun hhost =>
    hbody _ (session_dead_acquire_host (session_dead_of_host_alive hdead hhost)) _

theorem inert_updatePageScale : (updatePageScale b).Inert w () :=
  inert_withHost_of_dead hdead fun _ hsession h => inert_pushPageScale hsession h

theorem inert_updatePreferences : (updatePreferences b).Inert w () :=
  inert_ifHosted fun hhost => inert_pushPreferences (session_dead_of_host_alive hdead hhost)

theorem inert_updateUserAgent : (updateUserAgent b).Inert w () :=
  inert_withHost_of_dead hdead fun _ hsession h => inert_pushUserAgent hsession h

theorem inert_updateFormData : (updateFormData b).Inert w () :=
  inert_withHost_of_dead hdead fun _ hsession h => inert_pushFormData hsession h

theorem inert_updateEverything : (updateEverything b).Inert w () :=
  inert_withHost_of_dead hdead fun _ hsession h =>
    (inert_pushPageScale hsession h).bind <| (inert_pushPreferences hsession).bind <|
      (inert_pushUserAgent hsession h).bind <| inert_pushFormData hsession h

theorem inert_resetScroll : (resetScroll b).Inert w () := by
  refine inert_ifHosted fun hhost react => ?_
  rw [Op.outcome_get_bind, extension?_of_dead (session_dead_of_host_alive hdead hhost)]
  rfl

theorem inert_populate (p : Preferences) : (populate b p).Inert w p := by
  intro react
  rw [populate, Op.outcome_get_bind]
  dsimp only
  rw [Op.outcome_get_bind]
  split
  · next hhost =>
    refine Op.Inert.keeping hhost (fun react => ?_) react
    rw [Op.outcome_get_bind,
      extension?_of_dead (session_dead_acquire_host (session_dead_of_host_alive hdead hhost))]
    rfl
  · rfl

/-- A bridge that is looked up is alive, so that giving it back leaves it alone. -/
theorem outcome_populateFor_of_dead (react : Reaction σ) {c : ContextRef} {s : SessionRef}
    (hfound : w.living? ((w.contexts c).entered? (w.sessions s).id) = some b) (p : Preferences) :
    (populateFor c s p).outcome react w = (p, w.leased ⟨.registry c, false⟩) := by
  have halive : w.isAlive b.object = true := by
    rw [World.living?, Option.filter_eq_some_iff] at hfound
    exact hfound.2
  have hother : ∀ o : Object, o.kind ≠ .bridge → w.isAlive o = false →
      ((w.leased ⟨.registry c, false⟩).acquire .call b.object).isAlive o = false := by
    intro o hkind ho
    refine (World.isAlive_acquire_of_ne ?_).trans ho
    rintro rfl
    exact hkind rfl
  have hback := (w.leased ⟨.registry c, false⟩).withdraw_acquire .call b.object
  have hpopulate := inert_populate
    (hdead.imp (hother _ (by simp [Ref.object])) (hother _ (by simp [Ref.object]))) p react
  rw [populateFor, Op.outcome_get_bind, Op.outcome_bind, Registry.outcome_find?, hfound]
  change (populate b p >>= _).outcome react ((w.leased ⟨.registry c, false⟩).acquire .call b.object) = _
  rw [Op.outcome_bind, hpopulate, Op.outcome_bind, Op.outcome_release_bridge react (by rw [hback]; exact halive), hback]
  rfl

end Dead

/-! ## Languages without a session -/

theorem not_inert_updateAcceptLanguages {p : ServiceRef} (hhost : w.isAlive (w.bridges b).host.object = true)
    (hservice : (w.contexts (w.bridges b).context).service = some p) :
    ¬(updateAcceptLanguages b).Inert w () := by
  intro hinert
  -- a reaction that takes a number leaves a trace of the call that no release takes back
  have hnext : ∀ v : World σ, v.next = w.next → v.next + 1 = w.next → False := by
    intro v hv hsucc
    omega
  have hcalled := congrArg (fun out => out.2.next) (hinert fun _ u => { u with next := u.next + 1 })
  rw [outcome_updateAcceptLanguages _ hhost hservice] at hcalled
  simp only [World.next_releaseQuietly] at hcalled
  refine hnext _ ?_ hcalled
  simp only [storing, World.consulted]
  split <;> rfl

theorem inert_updateAcceptLanguages_iff : (updateAcceptLanguages b).Inert w () ↔
    w.isAlive (w.bridges b).host.object = false ∨ (w.contexts (w.bridges b).context).service = none := by
  constructor
  · intro hinert
    cases hhost : w.isAlive (w.bridges b).host.object with
    | false => exact .inl rfl
    | true =>
      cases hservice : (w.contexts (w.bridges b).context).service with
      | none => exact .inr rfl
      | some p => exact absurd hinert (not_inert_updateAcceptLanguages hhost hservice)
  · intro h
    refine inert_withHost fun hhost react => ?_
    rcases h with hgone | hservice
    · rw [hhost] at hgone
      exact Bool.noConfusion hgone
    · exact outcome_pushAcceptLanguages_none react _ hservice

end Bridge

/-- A bridge whose session or host is dead makes no call and changes nothing, in whichever way it is asked to. The
update of the languages alone is inert exactly if the host is dead or there is no service. -/
theorem dead_references_are_inert {w : World σ} {b : BridgeRef}
    (hdead : w.isAlive (w.bridges b).session.object = false ∨ w.isAlive (w.bridges b).host.object = false) :
    (∀ action : BridgeAction, action ≠ .updateAcceptLanguages → (action.perform b).Inert w ()) ∧
    (∀ p, (Bridge.populate b p).Inert w p) ∧
    (∀ c s p react, w.living? ((w.contexts c).entered? (w.sessions s).id) = some b →
      (Bridge.populateFor c s p).outcome react w = (p, w.leased ⟨.registry c, false⟩)) ∧
    ((Bridge.updateAcceptLanguages b).Inert w () ↔
      w.isAlive (w.bridges b).host.object = false ∨ (w.contexts (w.bridges b).context).service = none) ∧
    (∀ p, w.isAlive (w.bridges b).host.object = true →
      (w.contexts (w.bridges b).context).service = some p →
      (((Bridge.updateAcceptLanguages b).outcome (fun _ u => u) w).2.services p).get? acceptLanguagesKey =
        some (w.hosts (w.bridges b).host).acceptLanguages) := by
  refine ⟨?_, Bridge.inert_populate hdead, ?_, Bridge.inert_updateAcceptLanguages_iff, ?_⟩
  · intro action hother
    cases action with
    | updateEverything | renderViewCreated => exact Bridge.inert_updateEverything hdead
    | updatePageScale => exact Bridge.inert_updatePageScale hdead
    | updatePreferences => exact Bridge.inert_updatePreferences hdead
    | updateUserAgent => exact Bridge.inert_updateUserAgent hdead
    | updateFormData => exact Bridge.inert_updateFormData hdead
    | updateAcceptLanguages => exact absurd rfl hother
    | resetScroll => exact Bridge.inert_resetScroll hdead
  · intro c s p react hfound
    exact Bridge.outcome_populateFor_of_dead hdead react hfound p
  · intro p hhost hservice
    rw [Bridge.outcome_updateAcceptLanguages _ hhost hservice, World.services_releaseQuietly,
      World.services_releaseQuietly, Bridge.get?_storing]

/-- Once its session is dropped, a bridge still stores the languages, and nothing else. -/
theorem languages_stored_for_dead_session : ∃ w : World Diary, w.Reached Diary.note [] ∧
    w.isAlive (w.bridges ⟨4⟩).session.object = false ∧
    (Bridge.updateEverything ⟨4⟩).Inert w () ∧ ¬(Bridge.updateAcceptLanguages ⟨4⟩).Inert w () ∧
    (((Bridge.updateAcceptLanguages ⟨4⟩).outcome (fun _ u => u) w).2.services ⟨0⟩).get? acceptLanguagesKey =
      some "en-US,en" := by
  let deeds : List Deed :=
    [.makeService, .makeContext {} (some ⟨0⟩), .makeSession { id := ⟨7⟩ }, .makeHost {},
      .makeBridge ⟨1⟩ ⟨2⟩ ⟨3⟩, .drop ⟨.session, 2⟩]
  let w : World Diary := World.after Diary.note deeds { embedder := [] }
  have hw : w.Reached Diary.note [] := World.evolves_after Diary.note deeds (.still _)
  have hsession : w.isAlive (w.bridges ⟨4⟩).session.object = false := by decide +kernel
  have hhost : w.isAlive (w.bridges ⟨4⟩).host.object = true := by decide +kernel
  have hservice : (w.contexts (w.bridges ⟨4⟩).context).service = some ⟨0⟩ := by decide +kernel
  obtain ⟨haction, _, _, hlanguages, hstored⟩ := dead_references_are_inert (.inl hsession)
  refine ⟨w, hw, hsession, haction .updateEverything (by decide), ?_, ?_⟩
  · rw [hlanguages, hhost, hservice]
    simp
  · rw [hstored ⟨0⟩ hhost hservice]
    decide +kernel

end SettingsRelay
