import SettingsRelay.Proofs.PageScale
import SettingsRelay.Proofs.Telling

/-!
# What single operations do

The calls of each operation that carries one part, and that nothing else happens, for all that may be missing:
the host, the session, what its render view offers, its client, and the service of the context. An operation
leaves the world in which its calls were taken up and answered in turn, and nothing of the relay's own is
changed. The answers of the host are read where nothing is under lease, which is so whenever an application can
act.
-/

namespace SettingsRelay

variable {σ : Type}

/-- Whether an operation makes some calls and does nothing else. It is given in the world and in the same world
watched. -/
structure Op.OnlyCalls (watched : Op (σ × List Call) Unit) (op : Op σ Unit) (react : Reaction σ) (w : World σ)
    (cs : List Call) : Prop where
  calls : watched.calls react w = cs
  outcome : op.outcome react w = ((), w.told react cs)

theorem Op.Makes.onlyCalls {watched : Op (σ × List Call) Unit} {op : Op σ Unit} {react : Reaction σ} {w : World σ}
    {cs : List Call} (hmakes : Op.Makes watched op react w cs) (htells : op.Tells react w cs) :
    Op.OnlyCalls watched op react w cs := ⟨hmakes.calls, htells⟩

namespace Bridge

variable {react : Reaction σ} {answer : Call → Outside σ → Outside σ} {w : World σ} {b : BridgeRef} {h : HostRef}
  {cs : List Call}

/-! ## With what is needed at hand -/

theorem tells_withHost {body : HostRef → Op σ Unit} (hbody : (body (w.bridges b).host).Tells (.apart answer)
      (w.acquire .call (w.bridges b).host.object) cs) :
    (withHost b body).Tells (.apart answer) w (if w.isAlive (w.bridges b).host.object then cs else []) := by
  rw [Op.Tells, withHost, Op.outcome_get_bind]
  dsimp only
  rw [Op.outcome_get_bind]
  exact Op.Tells.ite (fun halive => hbody.keeping (.inl halive)) fun _ => Op.tells_pure _ w

theorem tells_ifHosted {body : Op σ Unit} (hbody : body.Tells react w cs) :
    (ifHosted b body).Tells react w (if w.isAlive (w.bridges b).host.object then cs else []) := by
  rw [Op.Tells, ifHosted, Op.outcome_get_bind, Op.outcome_get_bind]
  exact Op.Tells.ite (fun _ => hbody) fun _ => Op.tells_pure react w

theorem tells_withSession {body : SessionRef → Op σ Unit} (hbody : (body (w.bridges b).session).Tells (.apart answer)
      (w.acquire .call (w.bridges b).session.object) cs) :
    (withSession b body).Tells (.apart answer) w (if w.isAlive (w.bridges b).session.object then cs else []) := by
  rw [Op.Tells, withSession, Op.outcome_get_bind]
  dsimp only
  rw [Op.outcome_get_bind]
  exact Op.Tells.ite (fun halive => hbody.keeping (.inl halive)) fun _ => Op.tells_pure _ w

/-! ## The parts -/

theorem tells_pushPageScale (hquiet : w.leases = []) :
    (pushPageScale b h).Tells react w (pageScaleCalls b h w) := by
  rw [Op.Tells, pushPageScale, Op.outcome_get_bind, pageScaleCalls]
  cases extension? w b with
  | none => exact Op.tells_pure react w
  | some s =>
    dsimp only
    rw [Op.outcome_readHost_bind hquiet]
    exact Op.tells_call rfl

theorem tells_pushPreferences : (pushPreferences b).Tells (.apart answer) w (preferencesCalls b w) :=
  tells_withSession (Op.Tells.ite (fun _ => Op.tells_call rfl) fun _ => Op.tells_pure _ _)

/-- The call that gives a session the user agent of a host, if it has one. -/
def agentCalls (b : BridgeRef) (h : HostRef) (w : World σ) : List Call :=
  ((w.hosts h).userAgent.map (.userAgent (w.receiver (w.bridges b).session))).toList

theorem identified_eq (react : Reaction σ) (hquiet : w.leases = []) :
    identified b h react w = (w.acquire .call (w.bridges b).session.object).told react (agentCalls b h w) := by
  have hkept : (w.acquire .call (w.bridges b).session.object).leases = [] := hquiet
  rw [identified, World.consulted_of_leases hkept, agentCalls]
  cases (w.hosts h).userAgent <;> rfl

theorem tells_pushUserAgent (hquiet : w.leases = []) :
    (pushUserAgent b h).Tells (.apart answer) w (userAgentCalls b h (.apart answer) w) := by
  have hkept : (w.acquire .call (w.bridges b).session.object).leases = [] := hquiet
  refine tells_withSession ?_
  rw [Op.Tells, Op.outcome_get_bind]
  dsimp only
  rw [Op.outcome_readHost_bind hkept, identified_eq _ hquiet]
  have hhost : ((w.acquire .call (w.bridges b).session.object).hosts h).userAgent = (w.hosts h).userAgent := rfl
  rw [hhost, agentCalls]
  cases (w.hosts h).userAgent with
  | none => exact Session.tells_markEntries _ _ _ _ _
  | some agent =>
    exact (Session.tells_overrideUserAgent _ _ _ agent).bind (Session.tells_markEntries _ _ _ _ _)

theorem tells_pushAcceptLanguages (hquiet : w.leases = []) :
    (pushAcceptLanguages b h).Tells (.apart answer) w (languageCalls b h w) := by
  rw [Op.Tells, pushAcceptLanguages, Op.outcome_get_bind, languageCalls]
  cases (w.contexts (w.bridges b).context).service with
  | none => exact Op.tells_pure _ w
  | some p =>
    have hkept : (w.acquire .call p.object).leases = [] := hquiet
    refine Op.Tells.keeping (.inr rfl) ?_
    rw [Op.Tells, Op.outcome_readHost_bind hkept]
    exact Service.tells_store _ _ _ _ _

theorem tells_resetScroll : (resetScroll b).Tells react w
    (if w.isAlive (w.bridges b).host.object then scrollCalls b w else []) := by
  refine tells_ifHosted ?_
  rw [Op.Tells, Op.outcome_get_bind, scrollCalls]
  cases extension? w b with
  | none => exact Op.tells_pure react w
  | some s => exact Op.tells_call rfl

/-! ## The calls, written out -/

theorem extension?_kept : extension? (w.acquire .call (w.bridges b).host.object) b =
    if w.isAlive (w.bridges b).session.object && (w.sessions (w.receiver (w.bridges b).session)).hasExtension then
      some (w.receiver (w.bridges b).session) else none :=
  extension?_acquire .call (by simp [Ref.object])

theorem session_kept : (w.acquire .call (w.bridges b).host.object).isAlive (w.bridges b).session.object =
    w.isAlive (w.bridges b).session.object :=
  World.isAlive_acquire_of_ne (by simp [Ref.object])

theorem actionCalls_updatePageScale : actionCalls react b w .updatePageScale =
    if w.isAlive (w.bridges b).host.object && w.isAlive (w.bridges b).session.object &&
        (w.sessions (w.receiver (w.bridges b).session)).hasExtension then
      [.pageScale (w.receiver (w.bridges b).session)
        (SettingsRelay.initialPageScale (w.hosts (w.bridges b).host).initialPageScalePercent
          (w.hosts (w.bridges b).host).dipScale)]
    else [] := by
  unfold actionCalls
  dsimp only
  rw [pageScaleCalls, extension?_kept, Bool.and_assoc]
  cases w.isAlive (w.bridges b).host.object <;>
    cases w.isAlive (w.bridges b).session.object &&
      (w.sessions (w.receiver (w.bridges b).session)).hasExtension <;> rfl

theorem actionCalls_updatePreferences : actionCalls react b w .updatePreferences =
    if w.isAlive (w.bridges b).host.object && w.isAlive (w.bridges b).session.object &&
        (w.sessions (w.receiver (w.bridges b).session)).hasExtension &&
        (w.sessions (w.receiver (w.bridges b).session)).hasViewHost then
      [.preferencesChanged (w.receiver (w.bridges b).session)]
    else [] := by
  unfold actionCalls preferencesCalls
  dsimp only
  rw [Bool.and_assoc, Bool.and_assoc]
  cases w.isAlive (w.bridges b).host.object <;> cases w.isAlive (w.bridges b).session.object <;> rfl

/-- The entries are counted once the session has its user agent. -/
theorem actionCalls_updateUserAgent (answer : Call → Outside σ → Outside σ) (hquiet : w.leases = []) :
    actionCalls (.apart answer) b w .updateUserAgent =
      if w.isAlive (w.bridges b).host.object && w.isAlive (w.bridges b).session.object then
        let given := agentCalls b (w.bridges b).host w
        let receiver := w.receiver (w.bridges b).session
        given ++ Session.entryCalls receiver (w.hosts (w.bridges b).host).userAgent.isSome
          ((w.told (.apart answer) given).sessions receiver).entries.length
      else [] := by
  have hkept : (w.acquire .call (w.bridges b).host.object).leases = [] := hquiet
  unfold actionCalls userAgentCalls
  dsimp only
  rw [identified_eq _ hkept, World.told_acquire, World.told_acquire]
  change (if _ then if (w.acquire .call (w.bridges b).host.object).isAlive (w.bridges b).session.object then _ else _
    else _) = _
  rw [session_kept]
  cases w.isAlive (w.bridges b).host.object <;> cases w.isAlive (w.bridges b).session.object <;> rfl

theorem languageCalls_eq (h : HostRef) : languageCalls b h w =
    ((w.contexts (w.bridges b).context).service.map fun p =>
      Call.stored p acceptLanguagesKey (w.hosts h).acceptLanguages).toList := by
  unfold languageCalls
  cases (w.contexts (w.bridges b).context).service <;> rfl

theorem actionCalls_updateAcceptLanguages : actionCalls react b w .updateAcceptLanguages =
    if w.isAlive (w.bridges b).host.object then
      ((w.contexts (w.bridges b).context).service.map fun p =>
        Call.stored p acceptLanguagesKey (w.hosts (w.bridges b).host).acceptLanguages).toList
    else [] := by
  unfold actionCalls
  dsimp only
  rw [languageCalls_eq]
  rfl

theorem actionCalls_resetScroll : actionCalls react b w .resetScroll =
    if w.isAlive (w.bridges b).host.object && w.isAlive (w.bridges b).session.object &&
        (w.sessions (w.receiver (w.bridges b).session)).hasExtension then
      [.resetScroll (w.receiver (w.bridges b).session)]
    else [] := by
  unfold actionCalls scrollCalls extension?
  dsimp only
  rw [Bool.and_assoc]
  cases w.isAlive (w.bridges b).host.object <;>
    cases w.isAlive (w.bridges b).session.object &&
      (w.sessions (w.receiver (w.bridges b).session)).hasExtension <;> rfl

/-! ## The operations -/

theorem onlyCalls_action (b : BridgeRef) (answer : Call → Outside σ → Outside σ) (hquiet : w.leases = [])
    (action : BridgeAction) (haction : action ∈
      [.updatePageScale, .updatePreferences, .updateUserAgent, .updateAcceptLanguages, .resetScroll]) :
    Op.OnlyCalls (action.perform b) (action.perform b) (.apart answer) w (actionCalls (.apart answer) b w action) := by
  refine (makes_action _ b w action).onlyCalls ?_
  simp only [List.mem_cons, List.not_mem_nil, or_false] at haction
  rcases haction with rfl | rfl | rfl | rfl | rfl
  · exact tells_withHost (tells_pushPageScale hquiet)
  · exact tells_ifHosted tells_pushPreferences
  · exact tells_withHost (tells_pushUserAgent hquiet)
  · exact tells_withHost (tells_pushAcceptLanguages hquiet)
  · exact tells_resetScroll

/-- The world in which the client of a bridge's session has what the host says about form data. -/
def formSaving (b : BridgeRef) (w : World σ) : World σ :=
  match (w.sessions (w.bridges b).session).client with
  | some c => w.changeClient c fun client => { client with saveFormData := (w.hosts (w.bridges b).host).saveFormData }
  | none => w

theorem isAlive_formSaving (o : Object) : (formSaving b w).isAlive o = w.isAlive o := by
  unfold formSaving
  split <;> rfl

theorem hosts_formSaving : (formSaving b w).hosts = w.hosts := by
  unfold formSaving
  split <;> rfl

theorem formSaving_acquire (o : Object) : formSaving b (w.acquire .call o) = (formSaving b w).acquire .call o := by
  have hclient : ((w.acquire .call o).sessions ((w.acquire .call o).bridges b).session).client =
      (w.sessions (w.bridges b).session).client := rfl
  unfold formSaving
  rw [hclient]
  split <;> rfl

theorem outcome_updateFormData (react : Reaction σ) (hquiet : w.leases = []) :
    (updateFormData b).outcome react w = ((),
      if w.isAlive (w.bridges b).host.object && w.isAlive (w.bridges b).session.object then formSaving b w else w) := by
  have hkept : (w.acquire .call (w.bridges b).host.object).leases = [] := hquiet
  cases hhost : w.isAlive (w.bridges b).host.object with
  | false => exact inert_withHost (fun halive => absurd (hhost.symm.trans halive) Bool.false_ne_true) react
  | true =>
    rw [updateFormData, withHost, Op.outcome_get_bind]
    dsimp only
    rw [Op.outcome_get_bind, if_pos hhost, Bool.true_and]
    refine Op.outcome_keeping_back (.inl ?_) ?_
    · rwa [apply_ite (World.isAlive · _), isAlive_formSaving, ite_self]
    · rw [pushFormData, Op.outcome_get_bind]
      change (if (w.acquire .call (w.bridges b).host.object).isAlive (w.bridges b).session.object then _ else _ :
        Op σ Unit).outcome react _ = _
      rw [session_kept]
      cases w.isAlive (w.bridges b).session.object with
      | false => rfl
      | true =>
        rw [if_pos rfl, if_pos rfl, formSaving]
        change (match (w.sessions (w.bridges b).session).client with
          | some c => _
          | none => pure () : Op σ Unit).outcome react _ = _
        cases (w.sessions (w.bridges b).session).client with
        | none => rfl
        | some c => exact Op.outcome_readHost_bind hkept _ _ _

end Bridge

/-- If whoever is called changes only what is outside, each operation that carries one part makes the calls given here
and does nothing else. Only the saving of form data is set, without a call. -/
theorem single_operations_do_just_this {w : World Diary} (hw : w.Reached Diary.note []) :
    (∀ v ∈ w.seen, v.leases = []) ∧
    ∀ {τ : Type} {v : World τ}, v.leases = [] → ∀ (b : BridgeRef) (answer : Call → Outside τ → Outside τ),
      let react := Reaction.apart answer
      let host := v.hosts (v.bridges b).host
      let session := v.sessions (v.bridges b).session
      let receiver := v.receiver (v.bridges b).session
      let hostAlive := v.isAlive (v.bridges b).host.object
      let sessionAlive := v.isAlive (v.bridges b).session.object
      let extension := (v.sessions receiver).hasExtension
      let viewHost := (v.sessions receiver).hasViewHost
      let given := (host.userAgent.map (.userAgent receiver)).toList
      let count := ((v.told react given).sessions receiver).entries.length
      Op.OnlyCalls (Bridge.updatePageScale b) (Bridge.updatePageScale b) react v
        (if hostAlive && sessionAlive && extension then
          [.pageScale receiver (initialPageScale host.initialPageScalePercent host.dipScale)] else []) ∧
      Op.OnlyCalls (Bridge.updatePreferences b) (Bridge.updatePreferences b) react v
        (if hostAlive && sessionAlive && extension && viewHost then [.preferencesChanged receiver] else []) ∧
      Op.OnlyCalls (Bridge.updateUserAgent b) (Bridge.updateUserAgent b) react v
        (if hostAlive && sessionAlive then
          given ++ (List.range count).map fun index => .entry receiver index host.userAgent.isSome else []) ∧
      Op.OnlyCalls (Bridge.updateAcceptLanguages b) (Bridge.updateAcceptLanguages b) react v
        (if hostAlive then ((v.contexts (v.bridges b).context).service.map fun p =>
          Call.stored p acceptLanguagesKey host.acceptLanguages).toList else []) ∧
      Op.OnlyCalls (Bridge.resetScroll b) (Bridge.resetScroll b) react v
        (if hostAlive && sessionAlive && extension then [.resetScroll receiver] else []) ∧
      ((Bridge.updateFormData b).calls react v = [] ∧
        (Bridge.updateFormData b).outcome react v = ((),
          if hostAlive && sessionAlive then
            match session.client with
            | some c => v.changeClient c fun client => { client with saveFormData := host.saveFormData }
            | none => v
          else v)) ∧
      ∀ cs, ∃ o, v.told react cs = v.withOutside o := by
  refine ⟨?_, fun {τ v} hquiet b answer => ?_⟩
  · exact World.leases_of_seen hw
  · have honly := Bridge.onlyCalls_action b answer hquiet
    refine ⟨?_, ?_, ?_, ?_, ?_, ⟨?_, ?_⟩, fun cs => World.exists_told_eq answer cs v⟩
    · exact Bridge.actionCalls_updatePageScale ▸ honly .updatePageScale (by decide)
    · exact Bridge.actionCalls_updatePreferences ▸ honly .updatePreferences (by decide)
    · exact Bridge.actionCalls_updateUserAgent answer hquiet ▸ honly .updateUserAgent (by decide)
    · exact Bridge.actionCalls_updateAcceptLanguages ▸ honly .updateAcceptLanguages (by decide)
    · exact Bridge.actionCalls_resetScroll ▸ honly .resetScroll (by decide)
    · exact (Bridge.makes_action _ b v .updateFormData).calls.trans (ite_self _)
    · exact Bridge.outcome_updateFormData _ hquiet

/-- A session that is given a user agent, which its host answers otherwise than its settings would, opens an entry
before it returns. All three are marked then, in order. -/
theorem entries_are_counted_late : ∃ w : World Diary, w.Reached Diary.note [] ∧
    let opening : Call → Outside Unit → Outside Unit := fun c o => match c with
      | .userAgent s _ =>
        { o with sessions := replaceAt o.sessions s { o.sessions s with entries := [false, false, false] } }
      | _ => o
    let out := (Bridge.updateUserAgent ⟨3⟩).outcome (.apart opening) w.bare
    (Bridge.updateUserAgent ⟨3⟩).calls (.apart opening) w.bare =
      [.userAgent ⟨1⟩ "agent", .entry ⟨1⟩ 0 true, .entry ⟨1⟩ 1 true, .entry ⟨1⟩ 2 true] ∧
    (out.2.sessions ⟨1⟩).entries = [true, true, true] ∧ (out.2.sessions ⟨1⟩).userAgent = some "agent" ∧
    out.2.shares = w.bare.shares := by
  let deeds : List Deed :=
    [.makeContext {} none, .makeSession { id := ⟨7⟩, entries := [false, false] },
      .makeCustomHost {} { userAgent := some (some "agent") }, .makeBridge ⟨0⟩ ⟨1⟩ ⟨2⟩]
  let w : World Diary := World.after Diary.note deeds { embedder := [] }
  have hw : w.Reached Diary.note [] := World.evolves_after Diary.note deeds (.still _)
  refine ⟨w, hw, ?_⟩
  intro opening out
  obtain ⟨hquiet, hdoes⟩ := single_operations_do_just_this hw
  obtain ⟨-, -, ⟨hcalls, houtcome⟩, -⟩ := hdoes (hquiet w.bare List.mem_cons_self) ⟨3⟩ opening
  refine ⟨hcalls.trans (by decide +kernel), ?_⟩
  have hout : out = _ := houtcome
  rw [hout]
  exact ⟨by decide +kernel, by decide +kernel, by decide +kernel⟩

end SettingsRelay
