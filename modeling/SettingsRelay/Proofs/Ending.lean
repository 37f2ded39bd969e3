import SettingsRelay.Proofs.Lookup

/-!
# Coming to life and ending

What is dead never comes to life again, and a bridge that was made is alive until the one move that
buries it. Of that move it is said here what it leaves alone.
-/

namespace SettingsRelay

variable {σ : Type}

namespace World

variable {w v : World σ} {holder : Holder} {o p : Object} {call : Option Call}

/-! ## Coming to life -/

theorem isAlive_of_acquire (h : (w.acquire holder p).isAlive o = true) : o = p ∨ w.isAlive o = true := by
  by_cases hp : p = o
  · exact .inl hp.symm
  · exact .inr ((isAlive_acquire_of_ne hp).symm.trans h)

theorem isAlive_of_acquire_alive (hp : w.isAlive p = true) (h : (w.acquire holder p).isAlive o = true) :
    w.isAlive o = true := by
  rcases isAlive_of_acquire h with rfl | h
  · exact hp
  · exact h

theorem isAlive_of_acquire? {kind : ObjectKind} {r : Option (Ref kind)}
    (h : (w.acquire? holder (r.map Ref.object)).isAlive o = true)
    (hr : ∀ x ∈ r, w.isAlive x.object = true) : w.isAlive o = true := by
  cases r with
  | none => exact h
  | some x => exact isAlive_of_acquire_alive (hr x rfl) h

theorem isAlive_of_sheds (hsheds : Sheds holder p w v) (h : v.isAlive o = true) : w.isAlive o = true :=
  isAlive_of_subset (fun s hs _ => hsheds.subset s hs) h

theorem isAlive_of_withdraw (h : (w.withdraw holder p).isAlive o = true) : w.isAlive o = true :=
  isAlive_of_sheds (.withdraw holder p w) h

/-- The host that is told is alive, so that keeping it brings nobody to life. -/
theorem isAlive_keptHost {b : BridgeRef} {host : HostRef} (htold : w.told? holder b = some host) (o : Object) :
    ((w.bury holder b).acquire .call host.object).isAlive o = (w.withdraw holder b.object).isAlive o := by
  have halive : (w.bury holder b).isAlive host.object = true := by
    rw [told?] at htold
    split at htold
    · next halive =>
      cases htold
      exact halive
    · cases htold
  rw [← isAlive_bury, Bool.eq_iff_iff]
  exact ⟨isAlive_of_acquire_alive halive, isAlive_acquire_of_alive⟩

theorem isAlive_parted (w : World σ) (holder : Holder) (b : BridgeRef) (o : Object) :
    (w.parted holder b).isAlive o = (w.withdraw holder b.object).isAlive o := by
  unfold parted
  split
  · next host htold =>
    dsimp only
    split
    · refine Eq.trans (isAlive_congr ?_ o) (isAlive_keptHost htold o)
      unfold detach
      split
      · split <;> rfl
      · rfl
    · exact isAlive_keptHost htold o
  · exact isAlive_bury w holder b o

/-- Services apart, a move brings nothing to life but what it makes. -/
theorem Move.isAlive_of_alive (m : Move w call v) (hkind : o.kind ≠ .service) (h : v.isAlive o = true) :
    w.isAlive o = true ∨ o.index = w.next ∧ w.next < v.next := by
  have hmaking : ∀ {kind : ObjectKind} {place : Ref kind → World σ → World σ},
      (w.making place).isAlive o = true →
      (place ⟨w.next⟩ { w with next := w.next + 1 }).next = w.next + 1 →
      ((place ⟨w.next⟩ { w with next := w.next + 1 }).isAlive o = true → w.isAlive o = true) →
      w.isAlive o = true ∨ o.index = w.next ∧ w.next < (w.making place).next := by
    intro kind place h hnext hplace
    rcases isAlive_of_acquire h with rfl | h
    · exact .inr ⟨rfl, (Nat.lt_succ_self _).trans_eq hnext.symm⟩
    · exact .inl (hplace h)
  cases m with
  | carry h' =>
    cases h' with
    | call | lease | agent | entry | saveFormData => exact .inl h
    | hold p hp =>
      rcases isAlive_of_acquire h with rfl | h
      · exact .inl (hp.resolve_right hkind)
      · exact .inl h
    | letGo p _ => exact .inl (isAlive_of_sheds (sheds_releaseQuietly w .call p) h)
  | store | set | replace | attach | customize | view | suggestions | delegate | remodel => exact .inl h
  | engage s client halive => exact .inl (isAlive_of_acquire? (r := client) h halive)
  | dismiss s c => exact .inl (isAlive_of_sheds (sheds_releaseClient w _ c) h)
  | makeService | makeHost | makeCustomHost | makeView | makeDelegate => exact hmaking h rfl id
  | makeContext switches service halive | makeClient service halive =>
    refine hmaking h (by cases service <;> rfl) fun h => ?_
    have hback := isAlive_of_acquire? h halive
    exact hback
  | makeSession session halive =>
    refine hmaking h (by cases session.client <;> rfl) fun h => ?_
    have hback := isAlive_of_acquire? h halive
    exact hback
  | makeBridge c s host hcontext _ =>
    by_cases ho : o = (⟨w.next⟩ : BridgeRef).object
    · exact .inr ⟨congrArg Object.index ho, Nat.lt_succ_self _⟩
    · exact .inl ((isAlive_makeBridge_of_ne hcontext ho).symm.trans h)
  | keep p halive => exact .inl (isAlive_of_acquire_alive halive h)
  | drop p _ => exact .inl (isAlive_of_sheds (sheds_releaseQuietly w .embedder p) h)
  | withdraw holder b _ => exact .inl (isAlive_of_withdraw h)
  | bury holder b _ _ =>
    rw [isAlive_parted] at h
    exact .inl (isAlive_of_withdraw h)
  | part b c => exact .inl (isAlive_of_sheds (sheds_releaseContext w _ c) h)

theorem Move.next_le (m : Move w call v) : w.next ≤ v.next := by
  rcases m.bridge_cases with ⟨hsame, _⟩ | ⟨_, service, _, _, rfl⟩ | ⟨_, _, _, _, _, rfl⟩ |
    ⟨holder, b, _, _, _, rfl⟩
  · exact hsame.next
  · cases service <;> exact Nat.le_succ _
  · exact Nat.le_succ _
  · exact (next_bury w holder b).ge.trans (SameBridges.of_parted w holder b).next

/-! ## Ending -/

/-- No bridge ends: those that were made are alive if they were, and those that are made are alive. -/
structure Continues (w v : World σ) : Prop where
  farewells : v.farewells = w.farewells
  alive : ∀ b ∈ w.made, v.isAlive b.object = w.isAlive b.object
  fresh : ∀ b ∈ v.made, b ∈ w.made ∨ v.isAlive b.object = true

/-- Bridges end one at a time, and only when the last share in them is withdrawn. -/
theorem Move.ending_cases (hw : Registered w) (m : Move w call v) :
    (Continues w v ∧ ∀ c ∈ call, c.isFarewell = false) ∨
    ∃ holder b, ⟨holder, Ref.object b⟩ ∈ w.shares ∧
      (w.withdraw holder b.object).isAlive b.object = false ∧
      call = w.farewell? holder b ∧ v = w.parted holder b := by
  rcases m.bridge_cases with ⟨hsame, hquiet⟩ | ⟨switches, service, halive, rfl, rfl⟩ |
    ⟨c, s, h, hcontext, rfl, rfl⟩ | hends
  · exact .inl ⟨⟨hsame.farewells, fun b _ => hsame.bridge_alive b, fun b hb => .inl (hsame.made ▸ hb)⟩, hquiet⟩
  · let placed : World σ :=
      { w with next := w.next + 1, contexts := replaceAt w.contexts ⟨w.next⟩ { switches, service } }
    have howned : SameBridges placed
        (placed.acquire? (.owner (⟨w.next⟩ : ContextRef).object) (service.map Ref.object)) :=
      (SameBridges.refl placed).acquire? _ halive
    refine .inl ⟨⟨howned.farewells, fun b _ => ?_, fun b hb => .inl (howned.made ▸ hb)⟩, by simp⟩
    exact (isAlive_acquire_of_ne (by simp [Ref.object])).trans (howned.bridge_alive b)
  · refine .inl ⟨⟨rfl, fun b hb => ?_, fun b hb => ?_⟩, by simp⟩
    · exact isAlive_makeBridge_of_ne hcontext fun heq => hw.ne_next hb (Ref.object_injective heq)
    · rcases List.mem_cons.1 hb with rfl | hb
      · exact .inr isAlive_makeBridge_self
      · exact .inl hb
  · exact .inr hends

end World

end SettingsRelay
