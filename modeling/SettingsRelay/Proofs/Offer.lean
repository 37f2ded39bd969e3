import SettingsRelay.Proofs.Farewell
import SettingsRelay.Proofs.Population
import SettingsRelay.Proofs.Watching

/-!
# Offers

What a session is given when its preferences are filled in, and the zoom that its render view is sent, follow from
the bridge that is found for it: from the session and the extension that the bridge has, from what its host answers
and from the switches of its context. Nothing else in the world makes a difference.
-/

namespace SettingsRelay

variable {σ τ : Type}

deriving instance DecidableEq for Particulars

def Call.isTextZoom : Call → Bool
  | textZoom .. => true
  | _ => false

/-- Releasing a bridge zooms nothing. Its host may be told of its end. -/
theorem Op.zooms_release (react : Reaction σ) (w : World (σ × List Call)) (b : BridgeRef) :
    ((release .call b.object).outcome react.watched w).2.embedder.2.filter Call.isTextZoom =
      w.embedder.2.filter Call.isTextZoom := by
  by_cases hheld : (⟨.call, b.object⟩ : Share) ∈ w.shares
  · cases halive : (w.withdraw .call b.object).isAlive b.object with
    | true =>
      rw [outcome_release_bridge react.watched halive]
      rfl
    | false =>
      have hparted : (w.parted .call b).embedder = w.embedder := by rw [World.parted_eq, World.bury_eq]
      rw [outcome_release_last react.watched hheld halive]
      dsimp only
      rw [World.settled_eq, World.farewell?_eq]
      dsimp only
      -- the one call there may be is that by which the host is told
      split
      · change (((w.parted .call b).embedder.2 ++ [_]).filter Call.isTextZoom) = _
        rw [hparted, List.filter_append]
        exact List.append_nil _
      · exact congrArg (fun e => e.2.filter Call.isTextZoom) hparted
  · rw [release, if_pos (show b.object.kind = .bridge from rfl), outcome_get_bind, if_neg hheld]
    rfl

namespace Bridge

variable {w : World σ} {b : BridgeRef}

/-- The session that a bridge zooms and what it fills in preferences from, if it can. -/
def offer? (w : World σ) (b : BridgeRef) : Option (SessionRef × Particulars) :=
  if w.isAlive (w.bridges b).host.object then (extension? w b).map fun s => (s, w.particulars b) else none

theorem extension?_acquire (holder : Holder) {o : Object} (hkind : o.kind ≠ .session) :
    extension? (w.acquire holder o) b = extension? w b := by
  have hother : o ≠ (w.bridges b).session.object := by
    rintro rfl
    exact hkind rfl
  have halive : (w.acquire holder o).isAlive (w.bridges b).session.object = w.isAlive (w.bridges b).session.object :=
    World.isAlive_acquire_of_ne hother
  unfold extension?
  dsimp only
  change (if ((w.acquire holder o).isAlive (w.bridges b).session.object && _) = true then _ else _) = _
  rw [halive]
  rfl

/-- Looking a bridge up and keeping it alive makes no difference to what it offers. -/
theorem offer?_found (w : World σ) (b a : BridgeRef) (l : Lease) :
    offer? ((w.leased l).acquire .call a.object) b = offer? w b := by
  have hhost : ((w.leased l).acquire .call a.object).isAlive (w.bridges b).host.object =
      w.isAlive (w.bridges b).host.object := World.isAlive_acquire_of_ne (by simp [Ref.object])
  have hextension : extension? ((w.leased l).acquire .call a.object) b = extension? w b :=
    extension?_acquire .call (by simp [Ref.object])
  unfold offer?
  rw [hextension]
  change (if ((w.leased l).acquire .call a.object).isAlive (w.bridges b).host.object = true then _ else _) = _
  rw [hhost]
  rfl

theorem fst_outcome_populate_eq (react : Reaction σ) (p : Preferences) :
    ((populate b p).outcome react w).1 = (offer? w b).elim p fun offer => offer.2.fill p := by
  unfold offer?
  split
  · next halive =>
    have hextension : extension? (w.acquire .call (w.bridges b).host.object) b = extension? w b :=
      extension?_acquire .call (by simp [Ref.object])
    cases hs : extension? w b with
    | none =>
      rw [populate, Op.outcome_get_bind]
      dsimp only
      rw [Op.outcome_get_bind, if_pos halive, Op.outcome_keeping, Op.outcome_get_bind, hextension, hs]
      rfl
    | some s =>
      rw [outcome_populate react p halive (hextension.trans hs)]
      rfl
  · next hdead =>
    rw [populate, Op.outcome_get_bind]
    dsimp only
    rw [Op.outcome_get_bind, if_neg hdead]
    rfl

theorem calls_populate_eq (react : Reaction σ) (p : Preferences) :
    (populate b p).calls react w = ((offer? w b).map fun offer => Call.textZoom offer.1 offer.2.factor).toList := by
  rw [(makes_populate b p).calls, zoomCalls, extension?_acquire .call (by simp [Ref.object])]
  unfold offer?
  split
  · cases extension? w b <;> rfl
  · rfl

end Bridge

def World.offer? (w : World σ) (c : ContextRef) (s : SessionRef) : Option (SessionRef × Particulars) :=
  (w.living? ((w.contexts c).entered? (w.sessions s).id)).bind (Bridge.offer? w)

namespace Bridge

variable {w : World σ}

theorem fst_outcome_populateFor_eq (react : Reaction σ) (c : ContextRef) (s : SessionRef) (p : Preferences) :
    ((populateFor c s p).outcome react w).1 = (w.offer? c s).elim p fun offer => offer.2.fill p := by
  rw [populateFor, Op.outcome_get_bind, Op.outcome_bind, Registry.outcome_find?, World.offer?]
  cases w.living? ((w.contexts c).entered? (w.sessions s).id) with
  | none => rfl
  | some b =>
    dsimp only [Option.map_some, World.acquire?, Option.bind_some]
    rw [← offer?_found w b b ⟨.registry c, false⟩]
    exact fst_outcome_populate_eq react p

theorem zooms_populateFor (react : Reaction σ) (c : ContextRef) (s : SessionRef) (p : Preferences) :
    ((populateFor c s p).calls react w).filter Call.isTextZoom =
      ((w.offer? c s).map fun offer => Call.textZoom offer.1 offer.2.factor).toList := by
  have hfind := Registry.outcome_find? react.watched (w.watched []) c (w.sessions s).id
  have hliving : (w.watched []).living? (((w.watched []).contexts c).entered? (w.sessions s).id) =
      w.living? ((w.contexts c).entered? (w.sessions s).id) := rfl
  rw [hliving] at hfind
  have hid : ((w.watched []).sessions s).id = (w.sessions s).id := rfl
  rw [Op.calls, populateFor, Op.outcome_get_bind, hid, Op.outcome_bind, hfind, World.offer?]
  cases w.living? ((w.contexts c).entered? (w.sessions s).id) with
  | none => rfl
  | some b =>
    dsimp only [Option.map_some, World.acquire?, Option.bind_some]
    let kept := (w.leased ⟨.registry c, false⟩).acquire .call b.object
    have hpopulate : ((populate b p).outcome react.watched (kept.watched [])).2.embedder.2 =
        (populate b p).calls react kept := rfl
    rw [Op.outcome_bind, Op.outcome_bind]
    refine (Op.zooms_release react _ b).trans ?_
    change (((populate b p).outcome react.watched (kept.watched [])).2.embedder.2).filter _ = _
    rw [hpopulate, calls_populate_eq, offer?_found w b b ⟨.registry c, false⟩]
    cases offer? w b <;> rfl

/-- Where the same is offered a session is given the same, whatever happens during the call. -/
theorem populateFor_congr {v : World τ} {c : ContextRef} {s : SessionRef} (h : v.offer? c s = w.offer? c s)
    (one : Reaction σ) (other : Reaction τ) (p : Preferences) :
    ((populateFor c s p).outcome other v).1 = ((populateFor c s p).outcome one w).1 ∧
    ((populateFor c s p).calls other v).filter Call.isTextZoom =
      ((populateFor c s p).calls one w).filter Call.isTextZoom := by
  rw [fst_outcome_populateFor_eq, fst_outcome_populateFor_eq, zooms_populateFor, zooms_populateFor, h]
  exact ⟨rfl, rfl⟩

end Bridge

/-! ## Worlds that agree -/

namespace World

/-- Two worlds agree on what concerns a session in a context: on its newest bridge, on whether that is alive, on the
session that it zooms, on whether its host is alive, and on what the host answers and how the switches are set. -/
structure Agrees (c : ContextRef) (s : SessionRef) (w : World σ) (v : World τ) : Prop where
  id : (v.sessions s).id = (w.sessions s).id
  newest : v.newest? c (w.sessions s).id = w.newest? c (w.sessions s).id
  alive : ∀ b, w.newest? c (w.sessions s).id = some b → v.isAlive b.object = w.isAlive b.object
  extension : ∀ b, w.newest? c (w.sessions s).id = some b → Bridge.extension? v b = Bridge.extension? w b
  host : ∀ b, w.newest? c (w.sessions s).id = some b →
    v.isAlive (v.bridges b).host.object = w.isAlive (w.bridges b).host.object
  particulars : ∀ b, w.newest? c (w.sessions s).id = some b → v.particulars b = w.particulars b

theorem Agrees.offer?_eq {c : ContextRef} {s : SessionRef} {w : World σ} {v : World τ} (h : Agrees c s w v)
    (hw : Registered w) (hv : Registered v) : v.offer? c s = w.offer? c s := by
  rw [offer?, offer?, hw.entered, hv.entered, h.id, h.newest]
  cases hnewest : w.newest? c (w.sessions s).id with
  | none => rfl
  | some b =>
    have hoffer : Bridge.offer? v b = Bridge.offer? w b := by
      rw [Bridge.offer?, Bridge.offer?, h.extension b hnewest, h.host b hnewest, h.particulars b hnewest]
    cases halive : w.isAlive b.object with
    | true =>
      have hother : v.isAlive b.object = true := (h.alive b hnewest).trans halive
      rw [living?_of_alive halive, living?_of_alive halive, living?_of_alive hother, living?_of_alive hother]
      exact hoffer
    | false =>
      have hother : v.isAlive b.object = false := (h.alive b hnewest).trans halive
      rw [living?_of_dead halive, living?_of_dead hother]
      rfl

end World

end SettingsRelay
