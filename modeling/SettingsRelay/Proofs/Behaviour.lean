import SettingsRelay.Proofs.Unnoticed

/-!
# Behaviours

What an application or its engine does when it is called, as a program. It looks at the objects and asks
which of them are alive, takes notes, and does whatever an application can do of its own accord, during which
it is called again. A program is free to do anything but one thing: it cannot tell how many references there
are to an object. So it does not notice how many calls keep a host that is alive anyway.
-/

namespace SettingsRelay

variable {σ : Type} {α β : Type}

open World (Pinned Hidden Unaware Move)

/-- What is done when a call is made, until it returns. -/
inductive Behaviour (σ : Type) where
  | rest
  /-- Goes on as it finds the objects, and as they are alive or not. The world that it looks at is shown
  without the shares in them. -/
  | look (next : World σ → (Object → Bool) → Behaviour σ)
  | note (f : σ → σ) (next : Behaviour σ)
  /-- Does something, and answers the calls that it leads to. -/
  | act (deed : Deed) (answer : Call → Behaviour σ) (next : Behaviour σ)

namespace Behaviour

def run : Behaviour σ → World σ → World σ
  | rest, w => w
  | look next, w => (next { w with shares := [] } w.isAlive).run w
  | note f next, w => next.run { w with embedder := f w.embedder }
  | act deed answer next, w => next.run (deed.perform.outcome (fun c u => (answer c).run u) w).2

def reaction (answers : Call → Behaviour σ) : Reaction σ := fun c w => (answers c).run w

end Behaviour

/-! ## Deeds do not notice -/

section Deeds

variable {h : HostRef} {react : Reaction σ} {w : World σ}

namespace Op

theorem unaware_whileAlive {objects : List Object} {body : Op σ Unit}
    (hbody : (∀ o ∈ objects, w.isAlive o = true) → Unaware h (body.outcome react) w) :
    Unaware h ((whileAlive objects body).outcome react) w := by
  refine unaware_get_bind ?_ fun {n v} hwv hn => ?_
  · split
    · next hall => exact hbody (List.all_eq_true.1 hall)
    · exact unaware_pure ()
  · have halive : v.isAlive = w.isAlive := funext (hwv.isAlive hn)
    rw [halive]

theorem unaware_ignore {op : Op σ α} (hop : Unaware h (op.outcome react) w) :
    Unaware h ((do let _ ← op : Op σ Unit).outcome react) w := unaware_bind_at hop (unaware_pure ())

theorem unaware_useBridge (hreact : react.IsUnaware h) (hw : h.index < w.next) {b : BridgeRef} {body : Op σ Unit}
    (hbody : ∀ v, h.index < v.next → Unaware h (body.outcome react) v) :
    Unaware h ((useBridge b body).outcome react) w := by
  refine unaware_get_bind ?_ fun hwv hn => ?_
  · split
    · next halive => exact unaware_holding hreact halive hw hbody
    · split
      · exact hbody w hw
      · exact unaware_pure ()
  · have howner : ∀ o, (⟨.owner b.object, o⟩ : Share) ≠ pin h := by simp [pin]
    simp only [hwv.isAlive hn, hwv.bridges, hwv.mem_iff (howner _)]

theorem unaware_useMemory (hreact : react.IsUnaware h) (hw : h.index < w.next) {k : HostRef} {body : Op σ Unit}
    (hbody : ∀ v, h.index < v.next → Unaware h (body.outcome react) v) :
    Unaware h ((useMemory k body).outcome react) w := by
  refine unaware_use hreact hw fun v hv => unaware_get_bind ?_ fun hvu _ => by rw [hvu.hosts]
  split
  · exact hbody v hv
  · exact unaware_pure ()

end Op

theorem Deed.unaware_perform (hreact : react.IsUnaware h) (hw : h.index < w.next) (deed : Deed) :
    Unaware h ((deed.perform : Op σ Unit).outcome react) w := by
  cases deed with
  | makeService => exact Op.unaware_ignore (Service.unaware_create hw)
  | makeContext switches service =>
    exact Op.unaware_whileAlive fun _ => Op.unaware_ignore (Context.unaware_create hw switches service)
  | makeClient service =>
    exact Op.unaware_whileAlive fun _ => Op.unaware_ignore (Client.unaware_create hw service)
  | makeSession session =>
    exact Op.unaware_whileAlive fun _ => Op.unaware_ignore (Session.unaware_create hw session)
  | makeHost settings => exact Op.unaware_ignore (Host.unaware_create hw settings)
  | makeCustomHost settings overrides => exact Op.unaware_ignore (Host.unaware_createCustom hw settings overrides)
  | makeView => exact Op.unaware_ignore (View.unaware_create hw)
  | makeDelegate => exact Op.unaware_ignore (Delegate.unaware_create hw)
  | makeBridge c s k => exact Op.unaware_whileAlive fun _ => Op.unaware_ignore (Bridge.unaware_create hw c s k)
  | keep o =>
    refine Op.unaware_whileAlive fun hall => Op.unaware_acquire (by simp [pin]) fun heq => ?_
    exact hall h.object (by simp [heq])
  | drop o => exact Op.unaware_release hreact (by simp [pin]) hw
  | act b action => exact Op.unaware_useBridge hreact hw fun _ hv => Bridge.unaware_perform hreact b action hv
  | populate b p =>
    exact Op.unaware_useBridge hreact hw fun _ hv => Op.unaware_ignore (Bridge.unaware_populate hreact b p hv)
  | populateFor c s p =>
    refine Op.unaware_use hreact hw fun _ hv => Op.unaware_use hreact hv fun _ hu => ?_
    exact Op.unaware_ignore (Bridge.unaware_populateFor hreact c s p hu)
  | lookUp c id =>
    refine Op.unaware_use hreact hw fun v hv => ?_
    refine Op.unaware_bind hv (Registry.unaware_find? c id) fun found u hu => ?_
    cases found with
    | none => exact Op.unaware_pure ()
    | some b => exact Op.unaware_release hreact (by simp [pin, Ref.object]) hu
  | countBridges c =>
    exact Op.unaware_use hreact hw fun _ _ => Op.unaware_ignore (Registry.unaware_count c)
  | attach k b =>
    refine Op.unaware_useMemory hreact hw fun _ hv => ?_
    exact Op.unaware_use hreact hv fun _ _ => Host.unaware_attach k b
  | set k change => exact Op.unaware_useMemory hreact hw fun _ hv => Host.unaware_set hreact k change hv
  | setSettings k settings =>
    refine Op.unaware_useMemory hreact hw fun _ hv => ?_
    exact Op.unaware_ignore (Host.unaware_setSettings hreact k settings hv)
  | readSettings k => exact Op.unaware_use hreact hw fun _ _ => Op.unaware_ignore (Op.unaware_readHost k _)
  | hasBridge k =>
    exact Op.unaware_useMemory hreact hw fun _ _ => Op.unaware_ignore (Host.unaware_hasBridge k)
  | customize k settings overrides =>
    refine Op.unaware_get_bind ?_ fun hwv _ => by rw [hwv.hosts]
    split
    · exact Op.unaware_modify (fun _ => rfl) (Nat.le_refl _)
    · exact Op.unaware_pure ()
  | remodel s hasExtension hasViewHost entries => exact Op.unaware_modify (fun _ => rfl) (Nat.le_refl _)
  | changeClient s client => exact Op.unaware_whileAlive fun _ => Session.unaware_changeClient hw s client
  | setView c view => exact Op.unaware_use hreact hw fun _ _ => Client.unaware_setView c view
  | setSaveFormData c enabled => exact Op.unaware_use hreact hw fun _ _ => Client.unaware_setSaveFormData c enabled
  | select c position => exact Op.unaware_use hreact hw fun _ hv => Client.unaware_select hreact c position hv
  | readSuggestions c =>
    exact Op.unaware_use hreact hw fun _ _ => Op.unaware_ignore (Client.unaware_readSuggestions c)
  | ask c question =>
    exact Op.unaware_use hreact hw fun _ hv => Op.unaware_ignore (Capability.unaware_ask hreact c question hv)

end Deeds

namespace Behaviour

/-! ## Behaviours do not notice -/

theorem unaware_run {h : HostRef} (behaviour : Behaviour σ) :
    ∀ w : World σ, h.index < w.next → Unaware h (fun w => ((), behaviour.run w)) w := by
  induction behaviour with
  | rest =>
    intro w _
    have hpure : Unaware h ((pure () : Op σ Unit).outcome fun _ u => u) w := Op.unaware_pure ()
    exact hpure
  | look next ih =>
    intro w hw
    have hnext := ih { w with shares := [] } w.isAlive w hw
    refine ⟨hnext.next_le, hnext.mortal, hnext.count, fun {n v} hwv hn => ?_⟩
    have hshown : ({ v with shares := [] } : World σ) = { w with shares := [] } := by rw [hwv.same]
    have halive : v.isAlive = w.isAlive := funext (hwv.isAlive (hnext.hidden hn))
    change _ = _ ∧ Pinned h n _ ((next { v with shares := [] } v.isAlive).run v)
    rw [hshown, halive]
    exact hnext.agrees hwv hn
  | note f next ih =>
    intro w hw
    have hnote :
        Unaware h ((modify fun w => { w with embedder := f w.embedder } : Op σ Unit).outcome fun _ u => u) w :=
      Op.unaware_modify (fun _ => rfl) (Nat.le_refl _)
    exact hnote.andThen (ih _ hw)
  | act deed answer next ihAnswer ihNext =>
    intro w hw
    have hanswer : (reaction answer).IsUnaware h := fun c v hv => ihAnswer c v hv
    have hdeed := Deed.unaware_perform hanswer hw deed
    exact hdeed.andThen (ihNext _ (hw.trans_le hdeed.next_le))

theorem isUnaware_reaction (h : HostRef) (answers : Call → Behaviour σ) : (reaction answers).IsUnaware h :=
  fun c w hw => unaware_run (answers c) w hw

/-! ## Behaviours are moves -/

theorem keeps {I : World σ → Prop} (hmove : ∀ a call b, Move a call b → I a → I b)
    (hnote : ∀ (f : σ → σ) a, I a → I { a with embedder := f a.embedder }) (behaviour : Behaviour σ) :
    ∀ w, I w → I (behaviour.run w) := by
  induction behaviour with
  | rest => exact fun _ => id
  | look next ih => exact fun w hw => ih _ _ w hw
  | note f next ih => exact fun w hw => ih _ (hnote f w hw)
  | act deed answer next ihAnswer ihNext =>
    exact fun w hw => ihNext _ ((deed.moves_perform w _).invariant hmove (fun c a ha => ihAnswer c a ha) hw)

end Behaviour

end SettingsRelay
