import SettingsRelay.Proofs.Pinned

/-!
# Operations that do not notice

Operations that look at a host only to see whether it is alive do not notice how many calls keep it. The
lemmas here say so of the parts that operations are made of and of what updates do.
-/

namespace SettingsRelay

variable {σ : Type} {α β : Type}

namespace World

variable {h : HostRef} {n : Nat} {w v u : World σ} {holder : Holder} {o : Object}

/-! ## What does not notice -/

/-- Whether what is run from a world does the same where calls have more shares in a host that lives without them. It
gives back all such shares that it takes, and does not bring the host to life. -/
structure Unaware (h : HostRef) (run : World σ → α × World σ) (w : World σ) : Prop where
  next_le : w.next ≤ (run w).2.next
  mortal : (run w).2.isAlive h.object = true → w.isAlive h.object = true
  count : (run w).2.shares.count (pin h) = w.shares.count (pin h)
  agrees : ∀ {n v}, Pinned h n w v → Hidden h n (run w).2 → (run v).1 = (run w).1 ∧ Pinned h n (run w).2 (run v).2

theorem Unaware.hidden {run : World σ → α × World σ} (hrun : Unaware h run w) (hn : Hidden h n (run w).2) :
    Hidden h n w := hn.imp_right hrun.mortal

theorem Unaware.andThen {run : World σ → α × World σ} {next : World σ → β × World σ} (hrun : Unaware h run w)
    (hnext : Unaware h next (run w).2) : Unaware h (fun v => next (run v).2) w where
  next_le := hrun.next_le.trans hnext.next_le
  mortal halive := hrun.mortal (hnext.mortal halive)
  count := hnext.count.trans hrun.count
  agrees hwv hn := hnext.agrees (hrun.agrees hwv (hnext.hidden hn)).2 hn

/-- What always runs in the same way as something that does not notice does not notice either. -/
theorem Unaware.of_eq {run run' : World σ → α × World σ} (hrun : Unaware h run' w)
    (heq : ∀ {n v}, Pinned h n w v → run v = run' v) : Unaware h run w := by
  have hself : run w = run' w := heq (.refl h w)
  constructor
  · rw [hself]
    exact hrun.next_le
  · rw [hself]
    exact hrun.mortal
  · rw [hself]
    exact hrun.count
  · intro n v hwv hn
    rw [hself] at hn ⊢
    rw [heq hwv]
    exact hrun.agrees hwv hn

end World

/-- Whether an application does not notice, whatever it is called for, once a host is there. -/
def Reaction.IsUnaware (h : HostRef) (react : Reaction σ) : Prop :=
  ∀ c w, h.index < w.next → World.Unaware h (fun w => ((), react c w)) w

open World (Pinned Hidden Unaware)

namespace Op

variable {h : HostRef} {react : Reaction σ} {w : World σ}

theorem unaware_pure (x : α) : Unaware h ((pure x : Op σ α).outcome react) w where
  next_le := Nat.le_refl _
  mortal := id
  count := rfl
  agrees hwv _ := ⟨rfl, hwv⟩

theorem unaware_bind_at {op : Op σ α} {next : α → Op σ β} (hop : Unaware h (op.outcome react) w)
    (hrest : Unaware h ((next (op.outcome react w).1).outcome react) (op.outcome react w).2) :
    Unaware h ((op >>= next).outcome react) w := by
  refine ⟨hop.next_le.trans hrest.next_le, fun halive => hop.mortal (hrest.mortal halive),
    hrest.count.trans hop.count,
    fun hwv hn => ?_⟩
  obtain ⟨hvalue, hpinned⟩ := hop.agrees hwv (hrest.hidden hn)
  rw [outcome_bind, outcome_bind, hvalue]
  exact hrest.agrees hpinned hn

theorem unaware_bind {op : Op σ α} {next : α → Op σ β} (hw : h.index < w.next) (hop : Unaware h (op.outcome react) w)
    (hnext : ∀ x v, h.index < v.next → Unaware h ((next x).outcome react) v) :
    Unaware h ((op >>= next).outcome react) w :=
  unaware_bind_at hop (hnext _ _ (hw.trans_le hop.next_le))

/-- What is done after looking at the world must not depend on the shares that are hidden. -/
theorem unaware_get_bind {next : World σ → Op σ α} (hnext : Unaware h ((next w).outcome react) w)
    (hlook : ∀ {n v}, Pinned h n w v → Hidden h n w → next v = next w) :
    Unaware h ((get >>= next).outcome react) w := by
  refine ⟨hnext.next_le, hnext.mortal, hnext.count, fun hwv hn => ?_⟩
  rw [outcome_get_bind, outcome_get_bind, hlook hwv (hnext.hidden hn)]
  exact hnext.agrees hwv hn

theorem unaware_call (hreact : react.IsUnaware h) (hw : h.index < w.next) (c : Call) :
    Unaware h ((call c : Op σ Unit).outcome react) w := hreact c w hw

/-! ### Changes of the world -/

theorem unaware_modify {f : World σ → World σ} (hf : ∀ s, f { w with shares := s } = { f w with shares := s })
    (hnext : w.next ≤ (f w).next) : Unaware h ((modify f : Op σ Unit).outcome react) w := by
  have hshares : (f w).shares = w.shares := by
    have hsame := congrArg World.shares (hf w.shares)
    exact hsame
  exact ⟨hnext, fun halive => (World.isAlive_congr hshares h.object).symm.trans halive, congrArg _ hshares,
    fun hwv _ => ⟨rfl, hwv.map hf⟩⟩

theorem unaware_modify_then {f g : World σ → World σ} (hf : Unaware h ((modify f : Op σ Unit).outcome react) w)
    (hg : Unaware h ((modify g : Op σ Unit).outcome react) (f w)) :
    Unaware h ((modify fun w => g (f w) : Op σ Unit).outcome react) w := by
  have hboth : Unaware h (((modify f : Op σ Unit) >>= fun _ => modify g).outcome react) w := unaware_bind_at hf hg
  exact hboth

/-- A new share, which is not one of a call in the host and does not bring the host to life. -/
theorem unaware_acquire {holder : Holder} {o : Object} (hs : ⟨holder, o⟩ ≠ pin h)
    (halive : o = h.object → w.isAlive h.object = true) :
    Unaware h ((modify (·.acquire holder o) : Op σ Unit).outcome react) w := by
  refine ⟨Nat.le_refl _, fun hafter => ?_, World.count_acquire hs, fun hwv _ => ⟨rfl, hwv.acquire holder o⟩⟩
  rcases World.isAlive_of_acquire hafter with heq | hbefore
  · exact halive heq.symm
  · exact hbefore

theorem unaware_releaseQuietly {holder : Holder} {o : Object} (hs : ⟨holder, o⟩ ≠ pin h) :
    Unaware h ((modify (·.releaseQuietly holder o) : Op σ Unit).outcome react) w where
  next_le := (World.next_releaseQuietly w holder o).ge
  mortal halive := World.isAlive_of_sheds (World.sheds_releaseQuietly w holder o) halive
  count := World.count_releaseQuietly hs
  agrees hwv _ := ⟨rfl, hwv.releaseQuietly hs⟩

theorem unaware_keeping_host {body : Op σ α} (halive : w.isAlive h.object = true)
    (hbody : Unaware h (body.outcome react) (w.acquire .call h.object)) :
    Unaware h ((keeping h.object body).outcome react) w := by
  have hcount :
      (body.outcome react (w.acquire .call h.object)).2.shares.count (pin h) = w.shares.count (pin h) + 1 :=
    hbody.count.trans List.count_cons_self
  constructor
  · exact hbody.next_le.trans (World.next_releaseQuietly _ .call h.object).ge
  · exact fun _ => halive
  · rw [outcome_keeping, World.releaseQuietly_host]
    exact List.count_erase_self.trans (by rw [hcount, Nat.add_sub_cancel])
  · intro n v hwv hn
    rw [outcome_keeping] at hn
    obtain ⟨hvalue, hpinned⟩ := hbody.agrees (hwv.acquire .call h.object)
      (hn.imp_right (World.isAlive_of_sheds (World.sheds_releaseQuietly _ .call h.object)))
    have hmem : pin h ∈ (body.outcome react (w.acquire .call h.object)).2.shares :=
      List.count_pos_iff.1 (by omega)
    rw [outcome_keeping, outcome_keeping, World.releaseQuietly_host, World.releaseQuietly_host]
    exact ⟨hvalue, hpinned.withdraw (.inr hmem)⟩

theorem unaware_keeping_of_ne {o : Object} {body : Op σ α} (ho : o ≠ h.object)
    (hbody : Unaware h (body.outcome react) (w.acquire .call o)) : Unaware h ((keeping o body).outcome react) w := by
  have hs : (⟨.call, o⟩ : Share) ≠ pin h := fun heq => ho (congrArg Share.object heq)
  constructor
  · exact hbody.next_le.trans (World.next_releaseQuietly _ .call o).ge
  · intro halive
    have hbefore := hbody.mortal (World.isAlive_of_sheds (World.sheds_releaseQuietly _ .call o) halive)
    exact (World.isAlive_acquire_of_ne ho).symm.trans hbefore
  · exact (World.count_releaseQuietly hs).trans (hbody.count.trans (World.count_acquire hs))
  · intro n v hwv hn
    obtain ⟨hvalue, hpinned⟩ := hbody.agrees (hwv.acquire .call o)
      (hn.imp_right (World.isAlive_of_sheds (World.sheds_releaseQuietly _ .call o)))
    exact ⟨hvalue, hpinned.releaseQuietly hs⟩

/-- An object is kept while an operation runs. If it is the host, that has to be alive. -/
theorem unaware_keeping {o : Object} {body : Op σ α} (halive : o = h.object → w.isAlive h.object = true)
    (hbody : Unaware h (body.outcome react) (w.acquire .call o)) : Unaware h ((keeping o body).outcome react) w := by
  by_cases ho : o = h.object
  · subst ho
    exact unaware_keeping_host (halive rfl) hbody
  · exact unaware_keeping_of_ne ho hbody

/-! ### Cells -/

theorem unaware_readCell {cell : Cell} {f : World σ → α}
    (hf : ∀ {n v}, Pinned h n w v → Hidden h n w → f (v.openLease ⟨cell, false⟩) = f (w.openLease ⟨cell, false⟩)) :
    Unaware h ((readCell cell f).outcome react) w := by
  rw [funext fun v => outcome_readCell react v cell f]
  exact ⟨Nat.le_refl _, id, rfl, fun hwv hn => ⟨hf hwv hn, hwv.leased _⟩⟩

theorem unaware_writeCell {cell : Cell} {f : World σ → World σ} (hf : ∀ v l, f (v.openLease l) = (f v).openLease l)
    (hwrite : Unaware h ((modify f : Op σ Unit).outcome react) w) :
    Unaware h ((writeCell cell f).outcome react) w := by
  rw [funext fun v => outcome_writeCell react v cell f (hf v)]
  refine ⟨hwrite.next_le, hwrite.mortal, hwrite.count, fun hwv hn => ⟨rfl, ?_⟩⟩
  exact (hwrite.agrees hwv hn).2.leased _

theorem unaware_readHost (k : HostRef) (f : Host → α) : Unaware h ((readHost k f).outcome react) w := by
  have hconsulted : ∀ s, ({ w with shares := s } : World σ).consulted k = { w.consulted k with shares := s } := by
    intro s
    unfold World.consulted
    dsimp only
    split <;> rfl
  have hread : Unaware h ((modify (·.consulted k) : Op σ Unit).outcome react) w := by
    refine unaware_modify hconsulted (Nat.le_of_eq ?_)
    unfold World.consulted
    split <;> rfl
  rw [funext fun v => outcome_readHost react v k f]
  refine ⟨hread.next_le, hread.mortal, hread.count, fun hwv hn => ⟨?_, (hread.agrees hwv hn).2⟩⟩
  rw [hwv.hosts]

/-! ### References to other objects than hosts -/

theorem living?_pinned {n : Nat} {v : World σ} {kind : ObjectKind} (hwv : Pinned h n w v) (hkind : kind ≠ .host)
    (r : Option (Ref kind)) : v.living? r = w.living? r := by
  have hne : ∀ r : Ref kind, r.object ≠ h.object := fun r heq => hkind (congrArg Object.kind heq)
  cases r with
  | none => rfl
  | some r => simp only [World.living?, Option.filter_some, hwv.isAlive_of_ne (hne r)]

theorem unaware_acquire? {kind : ObjectKind} (hkind : kind ≠ .host) (holder : Holder) (r : Option (Ref kind)) :
    Unaware h ((modify (·.acquire? holder (r.map Ref.object)) : Op σ Unit).outcome react) w := by
  cases r with
  | none => exact unaware_pure ()
  | some r =>
    have hne : r.object ≠ h.object := fun heq => hkind (congrArg Object.kind heq)
    have hs : (⟨holder, r.object⟩ : Share) ≠ pin h := fun heq => hne (congrArg Share.object heq)
    exact unaware_acquire hs fun heq => absurd heq hne

theorem unaware_upgradeIn {kind : ObjectKind} (hkind : kind ≠ .host) (cell : Cell) (g : World σ → Option (Ref kind))
    (hg : ∀ v l, g (v.openLease l) = g v) (hlook : ∀ {n v}, Pinned h n w v → g v = g w) :
    Unaware h ((withLease cell false do upgrade (g (← get))).outcome react) w := by
  rw [funext fun v => outcome_upgradeIn react v cell g (hg v)]
  have hacquire :
      Unaware h ((modify (·.acquire? .call ((w.living? (g w)).map Ref.object)) : Op σ Unit).outcome react)
      (w.leased ⟨cell, false⟩) := unaware_acquire? hkind .call (w.living? (g w))
  refine ⟨hacquire.next_le, hacquire.mortal, hacquire.count, fun hwv hn => ?_⟩
  rw [hlook hwv, living?_pinned hwv hkind]
  exact ⟨rfl, (hacquire.agrees (hwv.leased _) hn).2⟩

/-! ### New objects -/

theorem unaware_create {kind : ObjectKind} {place : Ref kind → World σ → World σ} (hw : h.index < w.next)
    (hplace : Unaware h ((modify (place ⟨w.next⟩) : Op σ Unit).outcome react) { w with next := w.next + 1 }) :
    Unaware h ((create place).outcome react) w := by
  have hne : (⟨w.next⟩ : Ref kind).object ≠ h.object := fun heq => by
    have hindex := congrArg Object.index heq
    exact hw.ne' hindex
  have hs : (⟨.embedder, (⟨w.next⟩ : Ref kind).object⟩ : Share) ≠ pin h := fun heq => hne (congrArg Share.object heq)
  constructor
  · exact (Nat.le_succ _).trans hplace.next_le
  · intro halive
    exact hplace.mortal ((World.isAlive_acquire_of_ne hne).symm.trans halive)
  · exact (World.count_acquire hs).trans hplace.count
  · intro n v hwv hn
    have hnext : v.next = w.next := by rw [hwv.same]
    have hstart : Pinned h n { w with next := w.next + 1 } { v with next := w.next + 1 } :=
      hwv.map (f := fun u => { u with next := w.next + 1 }) fun _ => rfl
    have hplaced := (hplace.agrees hstart (hn.imp_right (World.isAlive_acquire_of_ne hne).symm.trans)).2
    change (⟨v.next⟩ : Ref kind) = ⟨w.next⟩ ∧ Pinned h n (w.making place) (v.making place)
    unfold World.making
    rw [hnext]
    exact ⟨rfl, hplaced.acquire _ _⟩

end Op

end SettingsRelay
