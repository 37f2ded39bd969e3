import SettingsRelay.Proofs.Ending

/-!
# Pinned hosts

A call that keeps a host alive has a share in it. Whoever is called meanwhile cannot tell how many such
shares there are as long as the host is alive anyway: whatever it does, it does the same to the same world
with some more of these shares. Here the two worlds are related, and with them the operations that do not
notice the difference.
-/

namespace SettingsRelay

variable {σ : Type} {α β : Type}

def pin (h : HostRef) : Share := ⟨.call, h.object⟩

namespace World

/-- The same world with some more shares of calls in a host, whatever the order of all shares is. -/
structure Pinned (h : HostRef) (n : Nat) (w v : World σ) : Prop where
  same : v = { w with shares := v.shares }
  shares : v.shares.Perm (List.replicate n (pin h) ++ w.shares)

/-- Whether the further shares in a host make no difference: there are none, or the host is alive without
them. -/
def Hidden (h : HostRef) (n : Nat) (w : World σ) : Prop := n = 0 ∨ w.isAlive h.object = true

variable {h : HostRef} {n : Nat} {w v u : World σ} {holder : Holder} {o : Object}

namespace Pinned

theorem refl (h : HostRef) (w : World σ) : Pinned h 0 w w := ⟨rfl, .refl _⟩

theorem of_acquire (h : HostRef) (w : World σ) : Pinned h 1 w (w.acquire .call h.object) := ⟨rfl, .refl _⟩

theorem sessions (hwv : Pinned h n w v) : v.sessions = w.sessions := by rw [hwv.same]

theorem contexts (hwv : Pinned h n w v) : v.contexts = w.contexts := by rw [hwv.same]

theorem clients (hwv : Pinned h n w v) : v.clients = w.clients := by rw [hwv.same]

theorem hosts (hwv : Pinned h n w v) : v.hosts = w.hosts := by rw [hwv.same]

theorem bridges (hwv : Pinned h n w v) : v.bridges = w.bridges := by rw [hwv.same]

theorem mem_iff (hwv : Pinned h n w v) {s : Share} (hs : s ≠ pin h) : s ∈ v.shares ↔ s ∈ w.shares := by
  rw [hwv.shares.mem_iff, List.mem_append, List.mem_replicate]
  simp [hs]

theorem isAlive_of_ne (hwv : Pinned h n w v) (ho : o ≠ h.object) : v.isAlive o = w.isAlive o := by
  rw [Bool.eq_iff_iff, isAlive_iff, isAlive_iff]
  refine exists_congr fun holder => hwv.mem_iff fun heq => ho ?_
  exact congrArg Share.object heq

theorem isAlive (hwv : Pinned h n w v) (hn : Hidden h n w) (o : Object) : v.isAlive o = w.isAlive o := by
  by_cases ho : o = h.object
  · subst ho
    rcases hn with rfl | halive
    · have hperm := hwv.shares
      rw [List.replicate_zero, List.nil_append] at hperm
      exact Bool.eq_iff_iff.2 (by rw [isAlive_iff, isAlive_iff]; exact exists_congr fun _ => hperm.mem_iff)
    · rw [halive]
      exact isAlive_of_subset (fun s hs _ => hwv.shares.mem_iff.2 (List.mem_append_right _ hs)) halive
  · exact hwv.isAlive_of_ne ho

/-! ### Changes of both worlds -/

theorem map (hwv : Pinned h n w v) {f : World σ → World σ}
    (hf : ∀ s, f { w with shares := s } = { f w with shares := s }) :
    Pinned h n (f w) (f v) := by
  have hw : (f w).shares = w.shares := by
    have hsame := congrArg World.shares (hf w.shares)
    exact hsame
  have hv : f v = { f w with shares := v.shares } := by rw [hwv.same, hf]
  constructor
  · rw [hv]
  · rw [hv, hw]
    exact hwv.shares

theorem leased (hwv : Pinned h n w v) (l : Lease) : Pinned h n (w.leased l) (v.leased l) :=
  hwv.map (f := fun w => w.leased l) fun _ => rfl

theorem acquire (hwv : Pinned h n w v) (holder : Holder) (o : Object) :
    Pinned h n (w.acquire holder o) (v.acquire holder o) where
  same := by
    rw [hwv.same]
    rfl
  shares := ((hwv.shares.cons _).trans List.perm_middle.symm)

theorem withdraw (hwv : Pinned h n w v) (hs : ⟨holder, o⟩ ≠ pin h ∨ pin h ∈ w.shares) :
    Pinned h n (w.withdraw holder o) (v.withdraw holder o) where
  same := by
    rw [hwv.same]
    rfl
  shares := by
    refine (hwv.shares.erase _).trans ?_
    by_cases hmem : (⟨holder, o⟩ : Share) ∈ w.shares
    · have hsplit := (List.perm_cons_erase hmem).append_left (List.replicate n (pin h))
      refine (hsplit.erase _).trans ?_
      refine (List.perm_middle.erase _).trans ?_
      rw [List.erase_cons_head]
      exact .refl _
    · have hne : (⟨holder, o⟩ : Share) ≠ pin h := by
        rcases hs with hne | hpin
        · exact hne
        · rintro heq
          exact hmem (heq ▸ hpin)
      have happend : (⟨holder, o⟩ : Share) ∉ List.replicate n (pin h) ++ w.shares := by
        simp [List.mem_replicate, hne, hmem]
      rw [World.withdraw, List.erase_of_not_mem happend, List.erase_of_not_mem hmem]

/-- A release of anything but a call's share in the host. What the object's end does must not look at the
further shares either. -/
theorem release (hwv : Pinned h n w v) (hs : ⟨holder, o⟩ ≠ pin h) {ends : World σ → World σ}
    (hends : ∀ {a b : World σ}, Pinned h n a b → Pinned h n (ends a) (ends b)) (hhost : o = h.object → ends = id) :
    Pinned h n (w.release holder o ends) (v.release holder o ends) := by
  have hwithdraw := hwv.withdraw (.inl hs)
  simp only [World.release, hwv.mem_iff hs]
  split
  · by_cases ho : o = h.object
    · rw [hhost ho]
      simpa using hwithdraw
    · rw [hwithdraw.isAlive_of_ne ho]
      split
      · exact hwithdraw
      · exact hends hwithdraw
  · exact hwv

theorem releaseService (hwv : Pinned h n w v) (holder : Holder) (r : ServiceRef) :
    Pinned h n (w.releaseService holder r) (v.releaseService holder r) :=
  hwv.release (by simp [pin, Ref.object]) id fun _ => rfl

theorem releaseOwned (hwv : Pinned h n w v) (owner : Object) (service : Option ServiceRef) :
    Pinned h n (w.releaseOwned owner service) (v.releaseOwned owner service) := by
  cases service with
  | none => exact hwv
  | some r => exact hwv.releaseService _ r

theorem releaseContext (hwv : Pinned h n w v) (holder : Holder) (r : ContextRef) :
    Pinned h n (w.releaseContext holder r) (v.releaseContext holder r) := by
  refine hwv.release (by simp [pin, Ref.object]) (fun hab => ?_) (by simp [Ref.object])
  rw [hab.contexts]
  exact hab.releaseOwned _ _

theorem releaseClient (hwv : Pinned h n w v) (holder : Holder) (r : ClientRef) :
    Pinned h n (w.releaseClient holder r) (v.releaseClient holder r) := by
  refine hwv.release (by simp [pin, Ref.object]) (fun hab => ?_) (by simp [Ref.object])
  rw [hab.clients]
  exact hab.releaseOwned _ _

theorem releaseSession (hwv : Pinned h n w v) (holder : Holder) (r : SessionRef) :
    Pinned h n (w.releaseSession holder r) (v.releaseSession holder r) := by
  refine hwv.release (by simp [pin, Ref.object]) (fun hab => ?_) (by simp [Ref.object])
  rw [hab.sessions]
  split
  · exact hab.releaseClient _ _
  · exact hab

theorem releaseQuietly (hwv : Pinned h n w v) (hs : ⟨holder, o⟩ ≠ pin h) :
    Pinned h n (w.releaseQuietly holder o) (v.releaseQuietly holder o) := by
  obtain ⟨kind, i⟩ := o
  cases kind with
  | service => exact hwv.releaseService holder ⟨i⟩
  | context => exact hwv.releaseContext holder ⟨i⟩
  | client => exact hwv.releaseClient holder ⟨i⟩
  | session => exact hwv.releaseSession holder ⟨i⟩
  | host | bridge | view | delegate => exact hwv.release hs id fun _ => rfl

end Pinned

/-! ## Counting the shares of calls in a host -/

theorem count_acquire (hs : ⟨holder, o⟩ ≠ pin h) :
    (w.acquire holder o).shares.count (pin h) = w.shares.count (pin h) :=
  List.count_cons_of_ne hs

theorem count_withdraw (hs : ⟨holder, o⟩ ≠ pin h) :
    (w.withdraw holder o).shares.count (pin h) = w.shares.count (pin h) :=
  List.count_erase_of_ne hs.symm

theorem count_release (hs : ⟨holder, o⟩ ≠ pin h) {ends : World σ → World σ}
    (hends : ∀ a : World σ, (ends a).shares.count (pin h) = a.shares.count (pin h)) :
    (w.release holder o ends).shares.count (pin h) = w.shares.count (pin h) := by
  unfold release
  split
  · dsimp only
    split
    · exact count_withdraw hs
    · exact (hends _).trans (count_withdraw hs)
  · rfl

theorem count_releaseOwned (owner : Object) (service : Option ServiceRef) :
    (w.releaseOwned owner service).shares.count (pin h) = w.shares.count (pin h) := by
  cases service with
  | none => rfl
  | some r => exact count_release (by simp [pin, Ref.object]) fun _ => rfl

theorem count_releaseContext (holder : Holder) (r : ContextRef) :
    (w.releaseContext holder r).shares.count (pin h) = w.shares.count (pin h) :=
  count_release (by simp [pin, Ref.object]) fun _ => count_releaseOwned _ _

theorem count_releaseClient (holder : Holder) (r : ClientRef) :
    (w.releaseClient holder r).shares.count (pin h) = w.shares.count (pin h) :=
  count_release (by simp [pin, Ref.object]) fun _ => count_releaseOwned _ _

theorem count_releaseQuietly (hs : ⟨holder, o⟩ ≠ pin h) :
    (w.releaseQuietly holder o).shares.count (pin h) = w.shares.count (pin h) := by
  obtain ⟨kind, i⟩ := o
  cases kind with
  | service => exact count_release hs fun _ => rfl
  | context => exact count_releaseContext holder ⟨i⟩
  | client => exact count_releaseClient holder ⟨i⟩
  | session =>
    refine count_release hs fun a => ?_
    split
    · exact count_releaseClient _ _
    · rfl
  | host | bridge | view | delegate => exact count_release hs fun _ => rfl

/-- Nothing ends with a host but the host itself. -/
theorem releaseQuietly_host (w : World σ) (holder : Holder) (h : HostRef) :
    w.releaseQuietly holder h.object = w.withdraw holder h.object := by
  change w.release holder h.object id = _
  unfold release
  split
  · exact ite_self _
  · next hmem => rw [World.withdraw, List.erase_of_not_mem hmem]

end World

end SettingsRelay
