import SettingsRelay.Bridge.Populate
import SettingsRelay.Host.InMemory
import SettingsRelay.World.Create

/-!
# Outcomes

What an operation returns and what world it leaves, once it is known how calls are reacted to. The
lemmas here take the outcome of an operation apart along its definition, down to the changes of the
world and the calls. A lease that is taken only to read or write a cell is given back before any
call, so all that it leaves is a note if it could not be had.
-/

namespace SettingsRelay

variable {σ : Type} {α β : Type}

/-! ## Leases that are given back -/

namespace World

/-- The world after a lease that was taken and given back. -/
def leased (w : World σ) (l : Lease) : World σ :=
  { w with conflicts := if w.isFree l then w.conflicts else l :: w.conflicts }

theorem closeLease_openLease (w : World σ) (l : Lease) : (w.openLease l).closeLease l = w.leased l := by
  simp only [openLease, closeLease, leased, List.erase_cons_head]

def consulted (w : World σ) (h : HostRef) : World σ :=
  if (w.hosts h).isInMemory then w.leased ⟨.hostSettings h, false⟩ else w

theorem hosts_consulted (w : World σ) (h : HostRef) : (w.consulted h).hosts = w.hosts := by
  unfold consulted
  split <;> rfl

end World

/-! ## Outcomes -/

namespace Op

def outcome (op : Op σ α) (react : Reaction σ) (w : World σ) : α × World σ := (op.run react).run w

variable (react : Reaction σ) (w : World σ)

@[simp] theorem outcome_pure (x : α) : (pure x : Op σ α).outcome react w = (x, w) := rfl

@[simp] theorem outcome_bind (op : Op σ α) (next : α → Op σ β) :
    (op >>= next).outcome react w =
      (next (op.outcome react w).1).outcome react (op.outcome react w).2 := rfl

@[simp] theorem outcome_get : (get : Op σ (World σ)).outcome react w = (w, w) := rfl

/-- Reading the world puts it into what follows, conditions and their decisions alike. -/
@[simp] theorem outcome_get_bind (next : World σ → Op σ α) :
    (get >>= next).outcome react w = (next w).outcome react w := rfl

@[simp] theorem outcome_modify (f : World σ → World σ) :
    (modify f : Op σ Unit).outcome react w = ((), f w) := rfl

@[simp] theorem outcome_call (c : Call) : (call c : Op σ Unit).outcome react w = ((), react c w) := rfl

theorem outcome_ite {p : Prop} [Decidable p] (x y : Op σ α) :
    (if p then x else y).outcome react w = if p then x.outcome react w else y.outcome react w := by
  split <;> rfl

/-! ### Cells -/

theorem outcome_readCell (cell : Cell) (f : World σ → α) :
    (readCell cell f).outcome react w = (f (w.openLease ⟨cell, false⟩), w.leased ⟨cell, false⟩) := by
  rw [← World.closeLease_openLease]
  rfl

theorem outcome_writeCell (cell : Cell) (f : World σ → World σ)
    (hf : ∀ l, f (w.openLease l) = (f w).openLease l) :
    (writeCell cell f).outcome react w = ((), (f w).leased ⟨cell, true⟩) := by
  have hclose := World.closeLease_openLease (f w) ⟨cell, true⟩
  rw [← hf] at hclose
  rw [← hclose]
  rfl

theorem outcome_readHost (h : HostRef) (f : Host → α) :
    (readHost h f).outcome react w = (f (w.hosts h), w.consulted h) := by
  simp only [readHost, outcome_get_bind, World.consulted]
  split
  · exact outcome_readCell react w _ _
  · rfl

/-! ### Shares -/

theorem outcome_keeping (o : Object) (body : Op σ α) :
    (keeping o body).outcome react w =
      ((body.outcome react (w.acquire .call o)).1,
        (body.outcome react (w.acquire .call o)).2.releaseQuietly .call o) := rfl

end Op

namespace World

def living? {kind : ObjectKind} (w : World σ) (r : Option (Ref kind)) : Option (Ref kind) :=
  r.filter fun r => w.isAlive r.object

@[simp] theorem living?_none {kind : ObjectKind} (w : World σ) :
    w.living? (none : Option (Ref kind)) = none := rfl

theorem living?_of_alive {kind : ObjectKind} {w : World σ} {r : Ref kind}
    (h : w.isAlive r.object = true) : w.living? (some r) = some r := by
  simp [living?, h]

theorem living?_of_dead {kind : ObjectKind} {w : World σ} {r : Ref kind}
    (h : w.isAlive r.object = false) : w.living? (some r) = none := by
  simp [living?, h]

end World

namespace Op

variable (react : Reaction σ) (w : World σ)

theorem outcome_upgrade {kind : ObjectKind} (r : Option (Ref kind)) :
    (upgrade r).outcome react w =
      (w.living? r, w.acquire? .call ((w.living? r).map Ref.object)) := by
  cases r with
  | none => rfl
  | some r =>
    simp only [upgrade, outcome_get_bind]
    by_cases halive : w.isAlive r.object = true
    · rw [if_pos halive, World.living?_of_alive halive]
      rfl
    · rw [if_neg halive, World.living?_of_dead (eq_false_of_ne_true halive)]
      rfl

theorem outcome_upgradeIn {kind : ObjectKind} (cell : Cell) (g : World σ → Option (Ref kind))
    (hg : ∀ l, g (w.openLease l) = g w) :
    (withLease cell false do upgrade (g (← get))).outcome react w =
      (w.living? (g w), (w.leased ⟨cell, false⟩).acquire? .call ((w.living? (g w)).map Ref.object)) := by
  simp only [withLease, outcome_bind, outcome_modify, outcome_get, hg, outcome_upgrade, outcome_pure]
  have hliving : (w.openLease ⟨cell, false⟩).living? (g w) = w.living? (g w) := rfl
  rw [hliving, ← World.closeLease_openLease]
  cases w.living? (g w) with
  | none => rfl
  | some r => rfl

end Op

end SettingsRelay
