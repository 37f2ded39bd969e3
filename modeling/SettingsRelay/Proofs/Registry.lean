import Mathlib.Data.List.Find
import SettingsRelay.Proofs.Application

/-!
# What the registry knows

A context has an entry for a session exactly while the bridge that was made last for that session
is alive, and the entry is that bridge. Only three moves touch this: a new bridge takes an entry
over, the end of a bridge strikes an entry, and a new context has none. At the end of a bridge the
registry looks only at whether the bridge that is entered is alive, and not at which bridge has
ended. That suffices because a bridge that is entered is the newest of its session, so that an
older one that ends finds a living entry, or none.
-/

namespace SettingsRelay

variable {σ : Type}

/-! ## Entries -/

namespace Context

theorem lookup_without {α : Type} (entries : List (SessionId × α)) (id k : SessionId) :
    (entries.filter (·.1 ≠ id)).lookup k = if k = id then none else entries.lookup k := by
  induction entries with
  | nil => simp
  | cons e rest ih =>
    obtain ⟨a, x⟩ := e
    by_cases ha : a = id
    · rw [List.filter_cons_of_neg (by simp [ha]), ih, List.lookup_cons]
      by_cases hk : k = id
      · rw [if_pos hk, if_pos hk]
      · have hne : (k == a) = false := by simp [ha, hk]
        rw [if_neg hk, if_neg hk, hne]
    · rw [List.filter_cons_of_pos (by simp [ha]), List.lookup_cons, List.lookup_cons, ih]
      by_cases hk : k = a
      · have hne : ¬k = id := by rwa [hk]
        simp [hk, ha]
      · have hne : (k == a) = false := by simp [hk]
        rw [hne]

theorem entered?_enter (c : Context) (id k : SessionId) (b : BridgeRef) :
    (c.enter id b).entered? k = if k = id then some b else c.entered? k := by
  rw [entered?, enter, List.lookup_cons]
  by_cases hk : k = id
  · simp [hk]
  · have hne : (k == id) = false := by simp [hk]
    rw [hne, if_neg hk, lookup_without, if_neg hk]
    rfl

theorem entered?_strike (c : Context) (id k : SessionId) :
    (c.strike id).entered? k = if k = id then none else c.entered? k :=
  lookup_without c.registry id k

theorem nodup_without {α : Type} {entries : List (SessionId × α)} (h : (entries.map (·.1)).Nodup)
    (id : SessionId) : ((entries.filter (·.1 ≠ id)).map (·.1)).Nodup :=
  h.sublist (List.filter_sublist.map _)

theorem nodup_enter {c : Context} (h : (c.registry.map (·.1)).Nodup) (id : SessionId) (b : BridgeRef) :
    ((c.enter id b).registry.map (·.1)).Nodup := by
  refine List.nodup_cons.2 ⟨?_, nodup_without h id⟩
  simp

theorem lookup_of_mem {α : Type} {entries : List (SessionId × α)} (h : (entries.map (·.1)).Nodup)
    {id : SessionId} {x : α} (hmem : (id, x) ∈ entries) : entries.lookup id = some x := by
  induction entries with
  | nil => simp at hmem
  | cons e rest ih =>
    obtain ⟨hfresh, hrest⟩ := List.nodup_cons.1 h
    rcases List.mem_cons.1 hmem with rfl | hmem
    · simp
    · have hne : id ≠ e.1 := fun heq => hfresh (List.mem_map.2 ⟨(id, x), hmem, heq⟩)
      have hne : (id == e.1) = false := by simp [hne]
      rw [List.lookup_cons, hne]
      exact ih hrest hmem

theorem mem_of_entered? {c : Context} {id : SessionId} {b : BridgeRef} (h : c.entered? id = some b) :
    (id, b) ∈ c.registry := by
  obtain ⟨before, after, heq, _⟩ := List.lookup_eq_some_iff.1 h
  rw [heq]
  simp

end Context

/-! ## The newest bridges -/

namespace World

variable {w v u : World σ} {holder : Holder} {o : Object}

/-- The bridge that was made last for a session in a context, whether or not it is alive. -/
def newest? (w : World σ) (c : ContextRef) (id : SessionId) : Option BridgeRef :=
  w.made.find? fun b => (w.bridges b).context = c && (w.bridges b).sessionId = id

/-- The registries know the newest bridges that are alive, and references are in order: what is
alive, and what bridges refer to, was given out before. -/
structure Registered (w : World σ) : Prop where
  entered : ∀ c id, (w.contexts c).entered? id = w.living? (w.newest? c id)
  single : ∀ c, ((w.contexts c).registry.map (·.1)).Nodup
  made_of_alive : ∀ b : BridgeRef, w.isAlive b.object = true → b ∈ w.made
  made_nodup : w.made.Nodup
  made_lt : ∀ b ∈ w.made, b.index < w.next
  context_lt : ∀ b ∈ w.made, (w.bridges b).context.index < w.next
  alive_lt : ∀ c : ContextRef, w.isAlive c.object = true → c.index < w.next

/-- The same bridges were made, the same of them are alive and the same are entered, none has ended,
and no context has come to life. -/
structure SameBridges (w v : World σ) : Prop where
  registry : ∀ c, (v.contexts c).registry = (w.contexts c).registry
  bridges : v.bridges = w.bridges
  made : v.made = w.made
  farewells : v.farewells = w.farewells
  next : w.next ≤ v.next
  bridge_alive : ∀ b : BridgeRef, v.isAlive b.object = w.isAlive b.object
  context_alive : ∀ c : ContextRef, v.isAlive c.object = true → w.isAlive c.object = true

namespace SameBridges

theorem refl (w : World σ) : SameBridges w w :=
  ⟨fun _ => rfl, rfl, rfl, rfl, le_rfl, fun _ => rfl, fun _ => id⟩

theorem trans (hwv : SameBridges w v) (hvu : SameBridges v u) : SameBridges w u where
  registry c := (hvu.registry c).trans (hwv.registry c)
  bridges := hvu.bridges.trans hwv.bridges
  made := hvu.made.trans hwv.made
  farewells := hvu.farewells.trans hwv.farewells
  next := hwv.next.trans hvu.next
  bridge_alive b := (hvu.bridge_alive b).trans (hwv.bridge_alive b)
  context_alive c halive := hwv.context_alive c (hvu.context_alive c halive)

theorem of_shares (hregistry : ∀ c, (v.contexts c).registry = (w.contexts c).registry)
    (hbridges : v.bridges = w.bridges) (hmade : v.made = w.made) (hfarewells : v.farewells = w.farewells)
    (hnext : w.next ≤ v.next) (hshares : v.shares = w.shares) : SameBridges w v where
  registry := hregistry
  bridges := hbridges
  made := hmade
  farewells := hfarewells
  next := hnext
  bridge_alive _ := isAlive_congr hshares _
  context_alive _ halive := (isAlive_congr hshares _).symm.trans halive

theorem of_sheds (h : Sheds holder o w v) (hkind : o.kind ≠ .bridge) : SameBridges w v := by
  have hback : ∀ p, v.isAlive p = true → w.isAlive p = true := fun p =>
    isAlive_of_subset fun s hs _ => h.subset s hs
  refine ⟨?_, ?_, ?_, ?_, ?_, ?_, fun c => hback _⟩
  · intro c
    rw [h.same]
  · rw [h.same]
  · rw [h.same]
  · rw [h.same]
  · rw [h.same]
  · intro b
    rw [Bool.eq_iff_iff]
    refine ⟨hback _, isAlive_of_subset fun s hs hobject => ?_⟩
    refine h.kept hs ?_ (by rw [hobject]; simp [Ref.object]) (by rw [hobject]; simp [Ref.object])
    rintro rfl
    exact hkind (by rw [show o = b.object from hobject]; rfl)

/-- A new share in what is alive already, or in what is neither bridge nor context. -/
theorem of_acquire (w : World σ) (holder : Holder) {o : Object}
    (h : w.isAlive o = true ∨ o.kind ≠ .bridge ∧ o.kind ≠ .context) :
    SameBridges w (w.acquire holder o) := by
  have hsame : ∀ p : Object, p.kind = .bridge ∨ p.kind = .context →
      (w.acquire holder o).isAlive p = w.isAlive p := by
    intro p hp
    by_cases hop : o = p
    · subst hop
      rcases h with halive | ⟨hbridge, hcontext⟩
      · rw [isAlive_acquire_self, halive]
      · exact absurd hp (not_or.2 ⟨hbridge, hcontext⟩)
    · exact isAlive_acquire_of_ne hop
  exact ⟨fun _ => rfl, rfl, rfl, rfl, le_rfl, fun b => hsame _ (.inl rfl),
    fun c halive => (hsame _ (.inr rfl)).symm.trans halive⟩

theorem acquire? (h : SameBridges w v) (holder : Holder) {kind : ObjectKind} {r : Option (Ref kind)}
    (halive : ∀ x ∈ r, v.isAlive x.object = true) :
    SameBridges w (v.acquire? holder (r.map Ref.object)) := by
  cases r with
  | none => exact h
  | some r => exact h.trans (.of_acquire v holder (.inl (halive r rfl)))

theorem of_making {kind : ObjectKind} {place : Ref kind → World σ → World σ}
    (hkind : kind ≠ .bridge ∧ kind ≠ .context)
    (hplace : SameBridges { w with next := w.next + 1 } (place ⟨w.next⟩ { w with next := w.next + 1 })) :
    SameBridges w (w.making place) := by
  have hnext : SameBridges w { w with next := w.next + 1 } :=
    .of_shares (fun _ => rfl) rfl rfl rfl (Nat.le_succ _) rfl
  exact (hnext.trans hplace).trans (.of_acquire _ _ (.inr hkind))

end SameBridges

theorem newest?_congr (hbridges : v.bridges = w.bridges) (hmade : v.made = w.made) (c : ContextRef)
    (id : SessionId) : v.newest? c id = w.newest? c id := by
  rw [newest?, newest?, hbridges, hmade]

theorem living?_congr {kind : ObjectKind} {r : Option (Ref kind)}
    (h : ∀ x ∈ r, v.isAlive x.object = w.isAlive x.object) : v.living? r = w.living? r := by
  cases r with
  | none => rfl
  | some x => simp [living?, Option.filter_some, h x rfl]

theorem Registered.of_same (hw : Registered w) (h : SameBridges w v) : Registered v where
  entered c id := by
    have hliving : v.living? (w.newest? c id) = w.living? (w.newest? c id) :=
      living?_congr fun b _ => h.bridge_alive b
    rw [newest?_congr h.bridges h.made, hliving, ← hw.entered, Context.entered?, h.registry]
    rfl
  single c := by
    rw [h.registry]
    exact hw.single c
  made_of_alive b halive := by
    rw [h.made]
    exact hw.made_of_alive b ((h.bridge_alive b).symm.trans halive)
  made_nodup := by
    rw [h.made]
    exact hw.made_nodup
  made_lt b hb := by
    rw [h.made] at hb
    exact (hw.made_lt b hb).trans_le h.next
  context_lt b hb := by
    rw [h.made] at hb
    rw [h.bridges]
    exact (hw.context_lt b hb).trans_le h.next
  alive_lt c halive := (hw.alive_lt c (h.context_alive c halive)).trans_le h.next

/-! ## The moves that touch registries -/

theorem Registered.of_entered (hw : Registered w) {c : ContextRef} {id : SessionId} {b : BridgeRef}
    (h : (w.contexts c).entered? id = some b) :
    (w.bridges b).context = c ∧ (w.bridges b).sessionId = id ∧ w.isAlive b.object = true := by
  rw [hw.entered, living?, Option.filter_eq_some_iff] at h
  have hmatch := List.find?_some h.1
  simp only [Bool.and_eq_true, decide_eq_true_eq] at hmatch
  exact ⟨hmatch.1, hmatch.2, h.2⟩

theorem Registered.acquire_context (hw : Registered w) (holder : Holder) {c : ContextRef}
    (hc : c.index < w.next) : Registered (w.acquire holder c.object) := by
  have halive : ∀ b : BridgeRef, (w.acquire holder c.object).isAlive b.object = w.isAlive b.object :=
    fun b => isAlive_acquire_of_ne (by simp [Ref.object])
  refine ⟨?_, hw.single, ?_, hw.made_nodup, hw.made_lt, hw.context_lt, ?_⟩
  · intro c' id
    exact (hw.entered c' id).trans (living?_congr fun b _ => halive b).symm
  · intro b hb
    exact hw.made_of_alive b ((halive b).symm.trans hb)
  · intro c' hc'
    by_cases heq : c = c'
    · exact heq ▸ hc
    · have hne : c.object ≠ c'.object := fun h => heq (Ref.object_injective h)
      exact hw.alive_lt c' ((isAlive_acquire_of_ne hne).symm.trans hc')

theorem Registered.newest?_next (hw : Registered w) (id : SessionId) : w.newest? ⟨w.next⟩ id = none := by
  refine List.find?_eq_none.2 fun b hb hmatch => ?_
  simp only [Bool.and_eq_true, decide_eq_true_eq] at hmatch
  have hlt := hw.context_lt b hb
  rw [hmatch.1] at hlt
  exact Nat.lt_irrefl _ hlt

theorem Registered.makeContext (hw : Registered w) (switches : Switches) {service : Option ServiceRef}
    (halive : ∀ p ∈ service, w.isAlive p.object = true) :
    Registered (w.making fun (r : ContextRef) w =>
      { w with contexts := replaceAt w.contexts r { switches, service } }.acquire?
        (.owner r.object) (service.map Ref.object)) := by
  have hplaced : Registered { w with
      next := w.next + 1, contexts := replaceAt w.contexts ⟨w.next⟩ { switches, service } } := by
    refine ⟨?_, ?_, hw.made_of_alive, hw.made_nodup, ?_, ?_, ?_⟩
    · intro c id
      dsimp only
      by_cases hc : c = ⟨w.next⟩
      · rw [hc, replaceAt_self]
        exact (congrArg w.living? (hw.newest?_next id)).symm
      · rw [replaceAt_of_ne hc]
        exact hw.entered c id
    · intro c
      dsimp only
      by_cases hc : c = ⟨w.next⟩
      · rw [hc, replaceAt_self]
        exact List.nodup_nil
      · rw [replaceAt_of_ne hc]
        exact hw.single c
    · exact fun b hb => (hw.made_lt b hb).trans (Nat.lt_succ_self _)
    · exact fun b hb => (hw.context_lt b hb).trans (Nat.lt_succ_self _)
    · exact fun c hc => (hw.alive_lt c hc).trans (Nat.lt_succ_self _)
  have howned := hplaced.of_same
    ((SameBridges.refl _).acquire? (.owner (⟨w.next⟩ : ContextRef).object) halive)
  refine howned.acquire_context .embedder ?_
  cases service <;> exact Nat.lt_succ_self _

/-! ### A new bridge -/

section MakeBridge

variable {c : ContextRef} {s : SessionRef} {h : HostRef}

theorem isAlive_makeBridge_self : (w.makeBridge c s h).isAlive (⟨w.next⟩ : BridgeRef).object = true :=
  isAlive_iff.2 ⟨.embedder, List.mem_cons_self⟩

/-- A new bridge brings nothing else to life, since its context is alive already. -/
theorem isAlive_makeBridge_of_ne (hcontext : w.isAlive c.object = true)
    (ho : o ≠ (⟨w.next⟩ : BridgeRef).object) :
    (w.makeBridge c s h).isAlive o = w.isAlive o := by
  refine (isAlive_acquire_of_ne (Ne.symm ho)).trans ?_
  by_cases hc : c.object = o
  · subst hc
    exact isAlive_acquire_self.trans hcontext.symm
  · exact isAlive_acquire_of_ne hc

theorem Registered.ne_next (hw : Registered w) {b : BridgeRef} (hb : b ∈ w.made) : b ≠ ⟨w.next⟩ := by
  rintro rfl
  exact Nat.lt_irrefl _ (hw.made_lt _ hb)

theorem bridges_makeBridge_self :
    (w.makeBridge c s h).bridges ⟨w.next⟩ = ⟨c, (w.sessions s).id, s, h⟩ := replaceAt_self _ _ _

theorem Registered.bridges_makeBridge (hw : Registered w) {b : BridgeRef} (hb : b ∈ w.made) :
    (w.makeBridge c s h).bridges b = w.bridges b := replaceAt_of_ne (hw.ne_next hb)

theorem Registered.newest?_makeBridge (hw : Registered w) (c' : ContextRef) (id : SessionId) :
    (w.makeBridge c s h).newest? c' id =
      if c = c' ∧ (w.sessions s).id = id then some ⟨w.next⟩ else w.newest? c' id := by
  refine (List.find?_cons ..).trans ?_
  rw [bridges_makeBridge_self]
  by_cases hmatch : c = c' ∧ (w.sessions s).id = id
  · simp [hmatch]
  · have hfalse : (decide (c = c') && decide ((w.sessions s).id = id)) = false := by
      simpa using hmatch
    rw [if_neg hmatch, hfalse]
    exact List.find?_congr fun b hb => by rw [hw.bridges_makeBridge hb]

theorem Registered.makeBridge (hw : Registered w) (hcontext : w.isAlive c.object = true) :
    Registered (w.makeBridge c s h) := by
  have hliving : ∀ c' id, (w.makeBridge c s h).living? (w.newest? c' id) = w.living? (w.newest? c' id) :=
    fun c' id => living?_congr fun b hb => isAlive_makeBridge_of_ne hcontext fun heq =>
      hw.ne_next (List.mem_of_find?_eq_some hb) (Ref.object_injective heq)
  have hregistry : (w.makeBridge c s h).contexts =
      replaceAt w.contexts c ((w.contexts c).enter (w.sessions s).id ⟨w.next⟩) := rfl
  refine ⟨?_, ?_, ?_, ?_, ?_, ?_, ?_⟩
  · intro c' id
    rw [hw.newest?_makeBridge, hregistry]
    by_cases hc : c = c'
    · subst hc
      rw [replaceAt_self, Context.entered?_enter]
      by_cases hid : (w.sessions s).id = id
      · rw [if_pos hid.symm, if_pos ⟨rfl, hid⟩, living?_of_alive isAlive_makeBridge_self]
      · rw [if_neg (Ne.symm hid), if_neg fun hmatch => hid hmatch.2, hliving, hw.entered]
    · rw [replaceAt_of_ne (Ne.symm hc), if_neg fun hmatch => hc hmatch.1, hliving, hw.entered]
  · intro c'
    rw [hregistry]
    by_cases hc : c' = c
    · subst hc
      rw [replaceAt_self]
      exact Context.nodup_enter (hw.single c') _ _
    · rw [replaceAt_of_ne hc]
      exact hw.single c'
  · intro b hb
    by_cases heq : b = ⟨w.next⟩
    · exact heq ▸ List.mem_cons_self
    · have hne : b.object ≠ (⟨w.next⟩ : BridgeRef).object := fun h => heq (Ref.object_injective h)
      rw [isAlive_makeBridge_of_ne hcontext hne] at hb
      exact List.mem_cons_of_mem _ (hw.made_of_alive b hb)
  · exact List.nodup_cons.2 ⟨fun hb => hw.ne_next hb rfl, hw.made_nodup⟩
  · intro b hb
    rcases List.mem_cons.1 hb with rfl | hb
    · exact Nat.lt_succ_self _
    · exact (hw.made_lt b hb).trans (Nat.lt_succ_self _)
  · intro b hb
    rcases List.mem_cons.1 hb with rfl | hb
    · rw [bridges_makeBridge_self]
      exact (hw.alive_lt c hcontext).trans (Nat.lt_succ_self _)
    · rw [hw.bridges_makeBridge hb]
      exact (hw.context_lt b hb).trans (Nat.lt_succ_self _)
  · intro c' hc'
    rw [isAlive_makeBridge_of_ne hcontext (by simp [Ref.object])] at hc'
    exact (hw.alive_lt c' hc').trans (Nat.lt_succ_self _)

end MakeBridge

/-! ### The end of a bridge -/

/-- Whoever unregisters a session leaves its entry if the bridge that is entered is alive. -/
theorem entered?_unregister (w : World σ) (c c' : ContextRef) (id id' : SessionId) :
    ((w.unregister c id).contexts c').entered? id' =
      if c' = c ∧ id' = id then w.living? ((w.contexts c).entered? id) else (w.contexts c').entered? id' := by
  have hsame : w.living? ((w.contexts c).entered? id) = (w.contexts c).entered? id →
      (w.contexts c').entered? id' = if c' = c ∧ id' = id then w.living? ((w.contexts c).entered? id)
        else (w.contexts c').entered? id' := by
    intro hliving
    split
    · next hkey => rw [hliving, hkey.1, hkey.2]
    · rfl
  unfold unregister
  split
  · next b hentry =>
    split
    · next halive => exact hsame (by rw [hentry, living?_of_alive halive])
    · next hdead =>
      rw [hentry, living?_of_dead (eq_false_of_ne_true hdead), changeContext]
      dsimp only
      by_cases hc : c' = c
      · subst hc
        rw [replaceAt_self, Context.entered?_strike]
        simp
      · rw [replaceAt_of_ne hc, if_neg fun hkey => hc hkey.1]
  · next hentry => exact hsame (by rw [hentry, living?_none])

theorem single_unregister (h : ∀ c, ((w.contexts c).registry.map (·.1)).Nodup) (c : ContextRef)
    (id : SessionId) (c' : ContextRef) :
    (((w.unregister c id).contexts c').registry.map (·.1)).Nodup := by
  unfold unregister
  split
  · split
    · exact h c'
    · rw [changeContext]
      dsimp only
      by_cases hc : c' = c
      · subst hc
        rw [replaceAt_self]
        exact Context.nodup_without (h c') id
      · rw [replaceAt_of_ne hc]
        exact h c'
  · exact h c'

section Bury

variable {b : BridgeRef}

theorem living?_withdraw (hdead : (w.withdraw holder b.object).isAlive b.object = false)
    (r : Option BridgeRef) : (w.withdraw holder b.object).living? r = (w.living? r).filter (· ≠ b) := by
  cases r with
  | none => rfl
  | some a =>
    by_cases hab : a = b
    · subst hab
      rw [living?_of_dead hdead]
      cases ha : w.isAlive a.object <;> simp [living?, Option.filter_some, ha]
    · have hne : b.object ≠ a.object := fun h => hab (Ref.object_injective h).symm
      cases ha : w.isAlive a.object <;>
        simp [living?, Option.filter_some, isAlive_withdraw_of_ne hne, ha, hab]

/-- What is struck is the entry for the bridge that ends. If the entry of its session is for another
bridge, then that one is alive and stays. -/
theorem Registered.entered?_bury (hw : Registered w)
    (hdead : (w.withdraw holder b.object).isAlive b.object = false) (c : ContextRef) (id : SessionId) :
    ((w.bury holder b).contexts c).entered? id = ((w.contexts c).entered? id).filter (· ≠ b) := by
  refine (entered?_unregister (w.withdraw holder b.object) _ c _ id).trans ?_
  split
  · next hkey =>
    -- every entry is alive while the bridge still is, so that the one the registry finds dead is its own
    have hliving : w.living? ((w.contexts c).entered? id) = (w.contexts c).entered? id := by
      rw [hw.entered, living?, living?, Option.filter_filter]
      simp only [Bool.and_self]
    rw [living?_withdraw hdead, ← hkey.1, ← hkey.2]
    exact congrArg (Option.filter (· ≠ b)) hliving
  · next hkey =>
    change (w.contexts c).entered? id = _
    cases hentry : (w.contexts c).entered? id with
    | none => rfl
    | some a =>
      have hab : a ≠ b := by
        rintro rfl
        obtain ⟨hc, hid, _⟩ := hw.of_entered hentry
        exact hkey ⟨hc.symm, hid.symm⟩
      simp [Option.filter_some, hab]

theorem Registered.bury (hw : Registered w)
    (hdead : (w.withdraw holder b.object).isAlive b.object = false) : Registered (w.bury holder b) := by
  have hless : ∀ o, (w.bury holder b).isAlive o = true → w.isAlive o = true := fun o =>
    isAlive_of_subset fun s hs _ => List.mem_of_mem_erase (shares_bury w holder b ▸ hs)
  refine ⟨?_, ?_, ?_, ?_, ?_, ?_, ?_⟩
  · intro c id
    have hliving : (w.bury holder b).living? (w.newest? c id) =
        (w.withdraw holder b.object).living? (w.newest? c id) :=
      living?_congr fun a _ => isAlive_bury w holder b a.object
    rw [hw.entered?_bury hdead, hw.entered, newest?_congr (bridges_bury w holder b) (made_bury w holder b),
      hliving, living?_withdraw hdead]
  · exact single_unregister (w := w.withdraw holder b.object) hw.single _ _
  · intro a ha
    rw [made_bury]
    exact hw.made_of_alive a (hless _ ha)
  · rw [made_bury]
    exact hw.made_nodup
  · rw [made_bury, next_bury]
    exact hw.made_lt
  · rw [made_bury, bridges_bury, next_bury]
    exact hw.context_lt
  · intro c hc
    rw [next_bury]
    exact hw.alive_lt c (hless _ hc)

end Bury

/-- What follows the burial of a bridge touches neither bridges nor registries. -/
theorem SameBridges.of_parted (w : World σ) (holder : Holder) (b : BridgeRef) :
    SameBridges (w.bury holder b) (w.parted holder b) := by
  unfold parted
  split
  · next host _ =>
    have hkept : SameBridges (w.bury holder b) ((w.bury holder b).acquire .call host.object) :=
      .of_acquire _ .call (.inr (by simp [Ref.object]))
    dsimp only
    split
    · refine hkept.trans (.of_shares (fun _ => ?_) ?_ ?_ ?_ (le_of_eq ?_) ?_) <;>
      · unfold detach
        split
        · split <;> rfl
        · rfl
    · exact hkept
  · exact .refl _

/-! ## All moves -/

/-- What a move can do to bridges and registries. No host is told of an end but by the last. -/
theorem Move.bridge_cases {call : Option Call} (m : Move w call v) :
    (SameBridges w v ∧ ∀ c ∈ call, c.isFarewell = false) ∨
    (∃ switches service, (∀ p ∈ service, w.isAlive (Ref.object p) = true) ∧ call = none ∧
      v = w.making fun (r : ContextRef) w =>
        { w with contexts := replaceAt w.contexts r { switches, service } }.acquire?
          (.owner r.object) (service.map Ref.object)) ∨
    (∃ c s h, w.isAlive (Ref.object c) = true ∧ call = none ∧ v = w.makeBridge c s h) ∨
    (∃ holder b, ⟨holder, Ref.object b⟩ ∈ w.shares ∧
      (w.withdraw holder b.object).isAlive b.object = false ∧
      call = w.farewell? holder b ∧ v = w.parted holder b) := by
  have hstill : ∀ {v : World σ}, v.contexts = w.contexts → v.bridges = w.bridges → v.made = w.made →
      v.farewells = w.farewells → v.next = w.next → v.shares = w.shares → SameBridges w v := by
    intro v hcontexts hbridges hmade hfarewells hnext hshares
    exact .of_shares (fun c => by rw [hcontexts]) hbridges hmade hfarewells hnext.ge hshares
  have hquiet : ∀ c ∈ (none : Option Call), c.isFarewell = false := by simp
  cases m with
  | carry h =>
    left
    cases h with
    | call c hc => exact ⟨.refl w, by simpa using hc⟩
    | lease | agent | entry | saveFormData => exact ⟨hstill rfl rfl rfl rfl rfl rfl, hquiet⟩
    | hold o h => exact ⟨.of_acquire w .call (h.imp_right fun hkind => by simp [hkind]), hquiet⟩
    | letGo o hkind => exact ⟨.of_sheds (sheds_releaseQuietly w .call o) hkind, hquiet⟩
  | store | set | replace | attach | customize | view | suggestions | delegate | remodel =>
    exact .inl ⟨hstill rfl rfl rfl rfl rfl rfl, hquiet⟩
  | engage s client halive =>
    refine .inl ⟨((SameBridges.refl w).acquire? (.owner s.object) halive).trans ?_, hquiet⟩
    exact .of_shares (fun _ => rfl) rfl rfl rfl le_rfl rfl
  | dismiss s c => exact .inl ⟨.of_sheds (sheds_releaseClient w _ c) (by simp [Ref.object]), hquiet⟩
  | makeService | makeHost | makeCustomHost | makeView | makeDelegate =>
    exact .inl ⟨.of_making (by simp) (.of_shares (fun _ => rfl) rfl rfl rfl le_rfl rfl), hquiet⟩
  | makeContext switches service halive => exact .inr (.inl ⟨switches, service, halive, rfl, rfl⟩)
  | makeClient service halive =>
    refine .inl ⟨.of_making (by simp) (SameBridges.acquire? ?_ _ halive), hquiet⟩
    exact .of_shares (fun _ => rfl) rfl rfl rfl le_rfl rfl
  | makeSession session halive =>
    refine .inl ⟨.of_making (by simp) (SameBridges.acquire? ?_ _ halive), hquiet⟩
    exact .of_shares (fun _ => rfl) rfl rfl rfl le_rfl rfl
  | makeBridge c s h hcontext _ => exact .inr (.inr (.inl ⟨c, s, h, hcontext, rfl, rfl⟩))
  | keep o halive => exact .inl ⟨.of_acquire w .embedder (.inl halive), hquiet⟩
  | drop o hkind => exact .inl ⟨.of_sheds (sheds_releaseQuietly w .embedder o) hkind, hquiet⟩
  | withdraw holder b halive =>
    refine .inl ⟨⟨fun _ => rfl, rfl, rfl, rfl, le_rfl, fun a => ?_, fun c => ?_⟩, hquiet⟩
    · by_cases hab : b = a
      · subst hab
        rw [halive]
        exact (isAlive_of_subset (fun s hs _ => List.mem_of_mem_erase hs) halive).symm
      · exact isAlive_withdraw_of_ne fun h => hab (Ref.object_injective h)
    · exact isAlive_of_subset fun s hs _ => List.mem_of_mem_erase hs
  | bury holder b hheld hdead => exact .inr (.inr (.inr ⟨holder, b, hheld, hdead, rfl, rfl⟩))
  | part b c => exact .inl ⟨.of_sheds (sheds_releaseContext w _ c) (by simp [Ref.object]), hquiet⟩

theorem Registered.of_move (hw : Registered w) {call : Option Call} (m : Move w call v) : Registered v := by
  rcases m.bridge_cases with ⟨hsame, _⟩ | ⟨switches, service, halive, _, rfl⟩ | ⟨c, s, h, hcontext, _, rfl⟩ |
    ⟨holder, b, _, hdead, _, rfl⟩
  · exact hw.of_same hsame
  · exact hw.makeContext switches halive
  · exact hw.makeBridge hcontext
  · exact (hw.bury hdead).of_same (.of_parted w holder b)

theorem Registered.initial (start : σ) : Registered ({ embedder := start } : World σ) where
  entered _ _ := rfl
  single _ := List.nodup_nil
  made_of_alive _ h := by simp [isAlive] at h
  made_nodup := List.nodup_nil
  made_lt _ h := by simp at h
  context_lt _ h := by simp at h
  alive_lt _ h := by simp [isAlive] at h

theorem Registered.of_reached {note : Notes σ} {start : σ} (h : w.Reached note start) : Registered w := by
  have hnoted : ∀ c (v : World σ), Registered v → Registered (v.noted note c) := fun _ _ hv =>
    ⟨hv.entered, hv.single, hv.made_of_alive, hv.made_nodup, hv.made_lt, hv.context_lt, hv.alive_lt⟩
  have hevolves : Evolves note { embedder := start } w := h
  exact hevolves.invariant (fun _ _ _ m hv => hv.of_move m) hnoted (.initial start)

end World

end SettingsRelay
