import Mathlib.Tactic.ByContra
import SettingsRelay.World.Basic

/-!
# Shares

An object is alive while somebody has a share in it. A release takes away the share that it names
and, where an object ends that nobody notices, the shares that this object had in services and
clients. It changes nothing else of the world.
-/

namespace SettingsRelay.World

variable {σ : Type} {w v u : World σ} {holder : Holder} {o p : Object}

theorem isAlive_iff : w.isAlive o = true ↔ ∃ holder, ⟨holder, o⟩ ∈ w.shares := by
  simp only [isAlive, List.any_eq_true, decide_eq_true_eq]
  constructor
  · rintro ⟨⟨holder, p⟩, hmem, rfl⟩
    exact ⟨holder, hmem⟩
  · rintro ⟨holder, hmem⟩
    exact ⟨⟨holder, o⟩, hmem, rfl⟩

theorem isAlive_congr (h : v.shares = w.shares) (o : Object) : v.isAlive o = w.isAlive o := by
  rw [isAlive, isAlive, h]

theorem isAlive_of_subset (h : ∀ s ∈ w.shares, s.object = o → s ∈ v.shares)
    (halive : w.isAlive o = true) : v.isAlive o = true := by
  obtain ⟨holder, hmem⟩ := isAlive_iff.1 halive
  exact isAlive_iff.2 ⟨holder, h _ hmem rfl⟩

@[simp] theorem isAlive_acquire_self : (w.acquire holder o).isAlive o = true := by
  simp [isAlive, acquire]

theorem isAlive_acquire_of_ne (h : o ≠ p) : (w.acquire holder o).isAlive p = w.isAlive p := by
  simp [isAlive, acquire, h]

theorem withdraw_acquire (w : World σ) (holder : Holder) (o : Object) : (w.acquire holder o).withdraw holder o = w := by
  simp only [acquire, withdraw, List.erase_cons_head]

theorem isAlive_acquire_of_alive (h : w.isAlive p = true) : (w.acquire holder o).isAlive p = true :=
  isAlive_of_subset (fun _ hs _ => List.mem_cons_of_mem _ hs) h

theorem isAlive_withdraw_of_ne (h : o ≠ p) : (w.withdraw holder o).isAlive p = w.isAlive p := by
  rw [Bool.eq_iff_iff]
  refine ⟨isAlive_of_subset fun s hs _ => List.mem_of_mem_erase hs, isAlive_of_subset fun s hs hobject => ?_⟩
  refine (List.mem_erase_of_ne ?_).2 hs
  rintro rfl
  exact h hobject

/-- What a release of an object leaves of the world: all but shares, and of these all but the one
that is named and some that other objects had in services and clients. -/
structure Sheds (holder : Holder) (o : Object) (w v : World σ) : Prop where
  same : v = { w with shares := v.shares }
  subset : ∀ s ∈ v.shares, s ∈ w.shares
  lost : ∀ s ∈ w.shares, s ∉ v.shares →
    s = ⟨holder, o⟩ ∨ (∃ p, s.holder = .owner p) ∧ (s.object.kind = .service ∨ s.object.kind = .client)

namespace Sheds

theorem refl (holder : Holder) (o : Object) (w : World σ) : Sheds holder o w w where
  same := rfl
  subset _ hs := hs
  lost _ hs hn := absurd hs hn

theorem withdraw (holder : Holder) (o : Object) (w : World σ) :
    Sheds holder o w (w.withdraw holder o) where
  same := rfl
  subset _ hs := List.mem_of_mem_erase hs
  lost s hs hn := by
    left
    by_cases hne : s = ⟨holder, o⟩
    · exact hne
    · exact absurd ((List.mem_erase_of_ne hne).2 hs) hn

theorem trans {q : Object} (hwv : Sheds holder o w v) (hvu : Sheds (.owner q) p v u)
    (hp : p.kind = .service ∨ p.kind = .client) : Sheds holder o w u where
  same := by
    have h := hvu.same
    rw [hwv.same] at h
    exact h
  subset s hs := hwv.subset s (hvu.subset s hs)
  lost s hs hn := by
    by_cases hv : s ∈ v.shares
    · rcases hvu.lost s hv hn with rfl | hother
      · exact .inr ⟨⟨q, rfl⟩, hp⟩
      · exact .inr hother
    · exact hwv.lost s hs hv

/-- A share stays that is not the one named and is not in a service or client. -/
theorem kept (h : Sheds holder o w v) {s : Share} (hs : s ∈ w.shares) (hne : s ≠ ⟨holder, o⟩)
    (hservice : s.object.kind ≠ .service) (hclient : s.object.kind ≠ .client) : s ∈ v.shares := by
  by_contra hn
  rcases h.lost s hs hn with heq | ⟨_, hkind | hkind⟩
  · exact hne heq
  · exact hservice hkind
  · exact hclient hkind

/-- What the embedder or a call has a share in stays, unless that share is named. -/
theorem kept_of_holder (h : Sheds holder o w v) {s : Share} (hs : s ∈ w.shares)
    (hne : s ≠ ⟨holder, o⟩) (howner : ∀ p, s.holder ≠ .owner p) : s ∈ v.shares := by
  by_contra hn
  rcases h.lost s hs hn with heq | ⟨⟨p, hp⟩, _⟩
  · exact hne heq
  · exact howner p hp

end Sheds

/-! ## Releases -/

/-- A release sheds what its end sheds. -/
theorem sheds_release (w : World σ) (holder : Holder) (o : Object) {ends : World σ → World σ}
    (hends : ∀ v, ends v = v ∨ ∃ q p, (p.kind = .service ∨ p.kind = .client) ∧
      Sheds (.owner q) p v (ends v)) : Sheds holder o w (w.release holder o ends) := by
  unfold release
  split
  · dsimp only
    split
    · exact .withdraw holder o w
    · rcases hends (w.withdraw holder o) with hid | ⟨q, p, hp, hsheds⟩
      · rw [hid]
        exact .withdraw holder o w
      · exact (Sheds.withdraw holder o w).trans hsheds hp
  · exact .refl holder o w

theorem sheds_releaseService (w : World σ) (holder : Holder) (r : ServiceRef) :
    Sheds holder r.object w (w.releaseService holder r) :=
  sheds_release w holder r.object fun _ => .inl rfl

theorem releaseService_eq {r : ServiceRef} (hmem : ⟨holder, r.object⟩ ∈ w.shares) :
    w.releaseService holder r = w.withdraw holder r.object := by
  rw [releaseService, release, if_pos hmem]
  exact ite_self _

theorem releaseOwned_cases (w : World σ) (owner : Object) (service : Option ServiceRef) :
    w.releaseOwned owner service = w ∨ ∃ q p, (p.kind = .service ∨ p.kind = .client) ∧
      Sheds (.owner q) p w (w.releaseOwned owner service) := by
  cases service with
  | none => exact .inl rfl
  | some r => exact .inr ⟨owner, r.object, .inl rfl, sheds_releaseService w _ r⟩

theorem sheds_releaseContext (w : World σ) (holder : Holder) (r : ContextRef) :
    Sheds holder r.object w (w.releaseContext holder r) :=
  sheds_release w holder r.object fun _ => releaseOwned_cases _ _ _

theorem sheds_releaseClient (w : World σ) (holder : Holder) (r : ClientRef) :
    Sheds holder r.object w (w.releaseClient holder r) :=
  sheds_release w holder r.object fun _ => releaseOwned_cases _ _ _

theorem sheds_releaseSession (w : World σ) (holder : Holder) (r : SessionRef) :
    Sheds holder r.object w (w.releaseSession holder r) := by
  refine sheds_release w holder r.object fun v => ?_
  split
  · next c _ => exact .inr ⟨r.object, c.object, .inr rfl, sheds_releaseClient v _ c⟩
  · exact .inl rfl

theorem sheds_releaseQuietly (w : World σ) (holder : Holder) (o : Object) :
    Sheds holder o w (w.releaseQuietly holder o) := by
  obtain ⟨kind, n⟩ := o
  cases kind with
  | service => exact sheds_releaseService w holder ⟨n⟩
  | context => exact sheds_releaseContext w holder ⟨n⟩
  | client => exact sheds_releaseClient w holder ⟨n⟩
  | session => exact sheds_releaseSession w holder ⟨n⟩
  | host | bridge | view | delegate => exact sheds_release w holder _ fun _ => .inl rfl

theorem releaseQuietly_eq (w : World σ) (holder : Holder) (o : Object) :
    w.releaseQuietly holder o = { w with shares := (w.releaseQuietly holder o).shares } :=
  (sheds_releaseQuietly w holder o).same

@[simp] theorem services_releaseQuietly (w : World σ) (holder : Holder) (o : Object) :
    (w.releaseQuietly holder o).services = w.services := by
  rw [releaseQuietly_eq]

@[simp] theorem hosts_releaseQuietly (w : World σ) (holder : Holder) (o : Object) :
    (w.releaseQuietly holder o).hosts = w.hosts := by
  rw [releaseQuietly_eq]

@[simp] theorem next_releaseQuietly (w : World σ) (holder : Holder) (o : Object) :
    (w.releaseQuietly holder o).next = w.next := by
  rw [releaseQuietly_eq]

/-- Whoever takes a share in an object that is alive and gives it back has changed nothing. -/
theorem release_acquire (halive : w.isAlive o = true) (ends : World σ → World σ) :
    (w.acquire holder o).release holder o ends = w := by
  have hmem : (⟨holder, o⟩ : Share) ∈ (w.acquire holder o).shares := List.mem_cons_self
  rw [release, if_pos hmem, withdraw_acquire]
  exact if_pos halive

theorem releaseQuietly_acquire (halive : w.isAlive o = true) :
    (w.acquire holder o).releaseQuietly holder o = w := by
  obtain ⟨kind, n⟩ := o
  cases kind with
  | service =>
    rw [releaseQuietly, releaseService]
    exact release_acquire halive _
  | context =>
    rw [releaseQuietly, releaseContext]
    exact release_acquire halive _
  | client =>
    rw [releaseQuietly, releaseClient]
    exact release_acquire halive _
  | session =>
    rw [releaseQuietly, releaseSession]
    exact release_acquire halive _
  | host | bridge | view | delegate => exact release_acquire halive _

end SettingsRelay.World
