import SettingsRelay.Proofs.Farewell

/-!
# Balance

A share that is not the embedder's is there for one of two reasons: a living object has it in the object that
it keeps alive, or an operation in progress took it and has still to give it back. What operations have to
give back is a list of debts, and the books of a world are balanced against it: they have every share as often
as the debts and the living objects account for, and no more.
-/

namespace SettingsRelay.World

variable {σ : Type} {w v u : World σ} {debts : List Share} {holder : Holder} {o p q : Object}

/-! ## What objects keep alive -/

/-- What an object keeps alive for as long as it lives. -/
def owned (w : World σ) : Object → Option Object
  | ⟨.context, n⟩ => (w.contexts ⟨n⟩).service.map Ref.object
  | ⟨.client, n⟩ => (w.clients ⟨n⟩).service.map Ref.object
  | ⟨.session, n⟩ => (w.sessions ⟨n⟩).client.map Ref.object
  | ⟨.bridge, n⟩ => some (w.bridges ⟨n⟩).context.object
  | _ => none

def due (w : World σ) (o : Object) : List Share := (w.owned o).toList.map (Share.mk (.owner o))

/-- Whether a share is one that a living object has in what it keeps alive. -/
def isLink (w : World σ) (s : Share) : Bool :=
  match s.holder with
  | .owner q => w.isAlive q && decide (w.owned q = some s.object)
  | _ => false

theorem isLink_owner : w.isLink ⟨.owner q, p⟩ = (w.isAlive q && decide (w.owned q = some p)) := rfl

theorem isLink_congr (halive : ∀ q p, w.owned q = some p → v.isAlive q = w.isAlive q)
    (howned : ∀ q, v.owned q = w.owned q) (s : Share) : v.isLink s = w.isLink s := by
  obtain ⟨holder, p⟩ := s
  cases holder with
  | owner q =>
    rw [isLink_owner, isLink_owner, howned]
    by_cases hq : w.owned q = some p
    · rw [halive q p hq]
    · simp [hq]
  | embedder | call => rfl

theorem count_owners (x : Option Object) (o : Object) (s : Share) :
    (x.toList.map (Share.mk (.owner o))).count s = (decide (s.holder = .owner o ∧ x = some s.object)).toNat := by
  obtain ⟨holder, p⟩ := s
  cases x with
  | none => simp
  | some y =>
    by_cases hboth : holder = .owner o ∧ y = p
    · obtain ⟨rfl, rfl⟩ := hboth
      simp
    · have hne : (⟨.owner o, y⟩ : Share) ≠ ⟨holder, p⟩ := fun heq => by
        cases heq
        exact hboth ⟨rfl, rfl⟩
      simp [hne, hboth]

theorem owned_of_service (h : o.kind = .service) : w.owned o = none := by
  obtain ⟨kind, n⟩ := o
  cases h
  rfl

theorem owned_congr_at (hcontexts : ∀ c : ContextRef, c.object = o → (v.contexts c).service = (w.contexts c).service)
    (hclients : ∀ c : ClientRef, c.object = o → (v.clients c).service = (w.clients c).service)
    (hsessions : ∀ s : SessionRef, s.object = o → (v.sessions s).client = (w.sessions s).client)
    (hbridges : ∀ b : BridgeRef, b.object = o → (v.bridges b).context = (w.bridges b).context) :
    v.owned o = w.owned o := by
  obtain ⟨kind, n⟩ := o
  cases kind with
  | context => exact congrArg (Option.map Ref.object) (hcontexts ⟨n⟩ rfl)
  | client => exact congrArg (Option.map Ref.object) (hclients ⟨n⟩ rfl)
  | session => exact congrArg (Option.map Ref.object) (hsessions ⟨n⟩ rfl)
  | bridge => exact congrArg (fun c => some (Ref.object c)) (hbridges ⟨n⟩ rfl)
  | service | host | view | delegate => rfl

theorem owned_congr (hcontexts : ∀ c, (v.contexts c).service = (w.contexts c).service)
    (hclients : ∀ c, (v.clients c).service = (w.clients c).service)
    (hsessions : ∀ s, (v.sessions s).client = (w.sessions s).client)
    (hbridges : ∀ b, (v.bridges b).context = (w.bridges b).context) (o : Object) : v.owned o = w.owned o :=
  owned_congr_at (fun c _ => hcontexts c) (fun c _ => hclients c) (fun s _ => hsessions s) fun b _ => hbridges b

/-- What a change of one object does not concern is the same of all of them. -/
theorem congr_replaceAt {α β γ : Type} [DecidableEq α] {f : α → β} {a : α} {b : β} {g : β → γ} (h : g b = g (f a))
    (x : α) : g (replaceAt f a b x) = g (f x) := by
  by_cases hx : x = a
  · rw [hx, replaceAt_self, h]
  · rw [replaceAt_of_ne hx]

theorem owned_changeContext {c : ContextRef} {f : Context → Context} (hf : ∀ x, (f x).service = x.service)
    (o : Object) : (w.changeContext c f).owned o = w.owned o :=
  owned_congr (w := w) (v := w.changeContext c f) (congr_replaceAt (hf _)) (fun _ => rfl) (fun _ => rfl)
    (fun _ => rfl) o

theorem owned_changeClient {c : ClientRef} {f : Client → Client} (hf : ∀ x, (f x).service = x.service)
    (o : Object) : (w.changeClient c f).owned o = w.owned o :=
  owned_congr (w := w) (v := w.changeClient c f) (fun _ => rfl) (congr_replaceAt (hf _)) (fun _ => rfl)
    (fun _ => rfl) o

theorem owned_changeSession {s : SessionRef} {f : Session → Session} (hf : ∀ x, (f x).client = x.client)
    (o : Object) : (w.changeSession s f).owned o = w.owned o :=
  owned_congr (w := w) (v := w.changeSession s f) (fun _ => rfl) (fun _ => rfl) (congr_replaceAt (hf _))
    (fun _ => rfl) o

/-- Out of the registry of its context, a bridge changes nothing that is kept alive. -/
theorem owned_bury (w : World σ) (holder : Holder) (b : BridgeRef) (o : Object) :
    (w.bury holder b).owned o = w.owned o := by
  have hunregistered : ∀ (v : World σ) c id, (v.unregister c id).owned o = v.owned o := fun v c id => by
    unfold unregister
    split
    · split
      · rfl
      · exact owned_changeContext (f := (·.strike id)) (fun _ => rfl) o
    · rfl
  exact hunregistered (w.withdraw holder b.object) _ _

theorem acquire?_eq (w : World σ) (holder : Holder) (x : Option Object) :
    w.acquire? holder x = { w with shares := x.toList.map (Share.mk holder) ++ w.shares } := by
  cases x <;> rfl

/-- An object that takes a share in a living one brings nothing to life. -/
theorem isAlive_of_owners {x : Option Object} (hshares : v.shares = x.toList.map (Share.mk (.owner o)) ++ w.shares)
    (halive : ∀ p ∈ x, w.isAlive p = true) (q : Object) : v.isAlive q = w.isAlive q := by
  rw [Bool.eq_iff_iff]
  constructor
  · intro hq
    obtain ⟨holder, hmem⟩ := isAlive_iff.1 hq
    rw [hshares] at hmem
    rcases List.mem_append.1 hmem with hmem | hmem
    · obtain ⟨p, hp, heq⟩ := List.mem_map.1 hmem
      cases heq
      exact halive _ (Option.mem_toList.1 hp)
    · exact isAlive_iff.2 ⟨holder, hmem⟩
  · exact isAlive_of_subset fun s hs _ => hshares ▸ List.mem_append_right _ hs

/-! ## Balance -/

/-- All shares but the embedder's are accounted for, by debts or by living objects. Objects have numbers that
were given out. -/
structure Balanced (debts : List Share) (w : World σ) : Prop where
  fresh : ∀ o, w.isAlive o = true → o.kind ≠ .service → o.index < w.next
  debtors : ∀ q p, ⟨.owner q, p⟩ ∈ debts → q.index < w.next
  count : ∀ s : Share, s.holder ≠ .embedder → w.shares.count s = debts.count s + (w.isLink s).toNat

theorem Balanced.initial (start : σ) : ({ embedder := start } : World σ).Balanced [] where
  fresh o h := by simp [isAlive] at h
  debtors q p h := by simp at h
  count s _ := by
    obtain ⟨holder, p⟩ := s
    cases holder <;> simp [isLink, isAlive]

theorem balanced_bare : w.bare.Balanced debts ↔ w.Balanced debts :=
  ⟨fun h => ⟨h.fresh, h.debtors, h.count⟩, fun h => ⟨h.fresh, h.debtors, h.count⟩⟩

namespace Balanced

theorem of_same (h : w.Balanced debts) (hshares : v.shares = w.shares) (hnext : v.next = w.next)
    (howned : ∀ o, v.owned o = w.owned o) : v.Balanced debts where
  fresh o ho hkind := hnext ▸ h.fresh o ((isAlive_congr hshares o).symm.trans ho) hkind
  debtors q p hmem := hnext ▸ h.debtors q p hmem
  count s hs := by
    rw [hshares, h.count s hs, isLink_congr (fun q _ _ => isAlive_congr hshares q) howned]

theorem of_embedder (h : w.Balanced (⟨.embedder, o⟩ :: debts)) : w.Balanced debts where
  fresh := h.fresh
  debtors q p hmem := h.debtors q p (List.mem_cons_of_mem _ hmem)
  count s hs := by
    have hne : (⟨.embedder, o⟩ : Share) ≠ s := fun heq => hs (heq ▸ rfl)
    rw [h.count s hs, List.count_cons_of_ne hne]

theorem with_embedder (h : w.Balanced debts) (o : Object) : w.Balanced (⟨.embedder, o⟩ :: debts) where
  fresh := h.fresh
  debtors q p hmem := h.debtors q p ((List.mem_cons.1 hmem).resolve_left (by simp))
  count s hs := by
    have hne : (⟨.embedder, o⟩ : Share) ≠ s := fun heq => hs (heq ▸ rfl)
    rw [h.count s hs, List.count_cons_of_ne hne]

theorem held (h : w.Balanced (⟨holder, o⟩ :: debts)) (hholder : holder ≠ .embedder) : ⟨holder, o⟩ ∈ w.shares := by
  rw [← List.count_pos_iff, h.count _ hholder, List.count_cons_self]
  omega

theorem debtor_of_due (h : w.Balanced debts) (ho : w.isAlive o = true) (hmem : ⟨.owner q, p⟩ ∈ w.due o) :
    q.index < w.next := by
  obtain ⟨x, hx, heq⟩ := List.mem_map.1 hmem
  cases heq
  refine h.fresh o ho fun hservice => ?_
  rw [owned_of_service hservice] at hx
  cases hx

/-! ### Taking shares and giving them back -/

theorem acquire (h : w.Balanced debts) (ho : w.isAlive o = true ∨ o.kind = .service)
    (hholder : ∀ q, holder = .owner q → q.index < w.next) :
    (w.acquire holder o).Balanced (⟨holder, o⟩ :: debts) where
  fresh p hp hkind := by
    rcases isAlive_of_acquire hp with rfl | hp
    · exact h.fresh p (ho.resolve_right hkind) hkind
    · exact h.fresh p hp hkind
  debtors q p hmem := by
    rcases List.mem_cons.1 hmem with heq | hmem
    · exact hholder q (congrArg Share.holder heq).symm
    · exact h.debtors q p hmem
  count s hs := by
    have hlink : (w.acquire holder o).isLink s = w.isLink s := by
      refine isLink_congr (w := w) (v := w.acquire holder o) (fun q p hq => ?_) (fun _ => rfl) s
      by_cases hoq : o = q
      · -- a service that was not alive before keeps nothing alive
        subst hoq
        rcases ho with halive | hservice
        · rw [isAlive_acquire_self, halive]
        · rw [owned_of_service hservice] at hq
          cases hq
      · exact isAlive_acquire_of_ne hoq
    rw [hlink, World.acquire, List.count_cons, List.count_cons, h.count s hs]
    omega

/-- One of several shares in an object that is given back. -/
theorem withdraw_alive (h : w.Balanced (⟨holder, o⟩ :: debts)) (hmem : ⟨holder, o⟩ ∈ w.shares)
    (halive : (w.withdraw holder o).isAlive o = true) : (w.withdraw holder o).Balanced debts where
  fresh p hp hkind := h.fresh p (isAlive_of_withdraw hp) hkind
  debtors q p hmem := h.debtors q p (List.mem_cons_of_mem _ hmem)
  count s hs := by
    have hlink : (w.withdraw holder o).isLink s = w.isLink s := by
      refine isLink_congr (w := w) (v := w.withdraw holder o) (fun q _ _ => ?_) (fun _ => rfl) s
      by_cases hoq : o = q
      · rw [← hoq, halive, isAlive_iff.2 ⟨holder, hmem⟩]
      · exact isAlive_withdraw_of_ne hoq
    have hcount := h.count s hs
    rw [List.count_cons] at hcount
    rw [hlink, World.withdraw, List.count_erase, hcount]
    omega

/-- With the last share in an object it ends, and the share that it had in what it kept alive has to be given
back. -/
theorem withdraw_last (h : w.Balanced (⟨holder, o⟩ :: debts)) (hmem : ⟨holder, o⟩ ∈ w.shares)
    (hdead : (w.withdraw holder o).isAlive o = false) : (w.withdraw holder o).Balanced (w.due o ++ debts) where
  fresh p hp hkind := h.fresh p (isAlive_of_withdraw hp) hkind
  debtors q p hqp := by
    rcases List.mem_append.1 hqp with hdue | hqp
    · exact h.debtor_of_due (isAlive_iff.2 ⟨holder, hmem⟩) hdue
    · exact h.debtors q p (List.mem_cons_of_mem _ hqp)
  count s hs := by
    have hcount := h.count s hs
    rw [List.count_cons] at hcount
    have hlink : (w.isLink s).toNat = (w.due o).count s + ((w.withdraw holder o).isLink s).toNat := by
      rw [due, count_owners]
      obtain ⟨holder', p⟩ := s
      cases holder' with
      | owner q =>
        by_cases hqo : q = o
        · subst hqo
          rw [isLink_owner, isLink_owner, hdead, isAlive_iff.2 ⟨holder, hmem⟩]
          simp
        · have hsame : (w.withdraw holder o).isAlive q = w.isAlive q := isAlive_withdraw_of_ne (Ne.symm hqo)
          have howned : (w.withdraw holder o).owned q = w.owned q := rfl
          rw [isLink_owner, isLink_owner, hsame, howned]
          simp [hqo]
      | embedder | call => simp [isLink]
    rw [World.withdraw, List.count_erase, List.count_append, hcount, hlink]
    simp only [World.withdraw]
    omega

/-- A release gives one share back, and where its object ends there also the share that this one had. -/
theorem release (h : w.Balanced (⟨holder, o⟩ :: debts)) {ends : World σ → World σ}
    (hends : ∀ v : World σ, v.Balanced (v.due o ++ debts) → (ends v).Balanced debts) :
    (w.release holder o ends).Balanced debts := by
  unfold World.release
  split
  · next hmem =>
    dsimp only
    split
    · next halive => exact h.withdraw_alive hmem halive
    · next hdead => exact hends _ (h.withdraw_last hmem (eq_false_of_ne_true hdead))
  · next hmem =>
    by_cases hholder : holder = .embedder
    · subst hholder
      exact h.of_embedder
    · exact absurd (h.held hholder) hmem

theorem releaseService {r : ServiceRef} (h : w.Balanced (⟨holder, r.object⟩ :: debts)) :
    (w.releaseService holder r).Balanced debts := h.release fun _ => id

theorem releaseOwned {service : Option ServiceRef}
    (h : w.Balanced ((service.map Ref.object).toList.map (Share.mk (.owner o)) ++ debts)) :
    (w.releaseOwned o service).Balanced debts := by
  cases service with
  | none => exact h
  | some r => exact releaseService h

theorem releaseContext {r : ContextRef} (h : w.Balanced (⟨holder, r.object⟩ :: debts)) :
    (w.releaseContext holder r).Balanced debts := h.release fun _ => releaseOwned

theorem releaseClient {r : ClientRef} (h : w.Balanced (⟨holder, r.object⟩ :: debts)) :
    (w.releaseClient holder r).Balanced debts := h.release fun _ => releaseOwned

theorem releaseSession {r : SessionRef} (h : w.Balanced (⟨holder, r.object⟩ :: debts)) :
    (w.releaseSession holder r).Balanced debts := by
  refine h.release fun v hv => ?_
  change v.Balanced (((v.sessions r).client.map Ref.object).toList.map (Share.mk (.owner r.object)) ++ debts) at hv
  split
  · next c hc =>
    rw [hc] at hv
    exact releaseClient hv
  · next hc =>
    rw [hc] at hv
    exact hv

theorem releaseQuietly (h : w.Balanced (⟨holder, o⟩ :: debts)) (hkind : o.kind ≠ .bridge) :
    (w.releaseQuietly holder o).Balanced debts := by
  obtain ⟨kind, n⟩ := o
  cases kind with
  | service => exact releaseService (r := ⟨n⟩) h
  | context => exact releaseContext (r := ⟨n⟩) h
  | client => exact releaseClient (r := ⟨n⟩) h
  | session => exact releaseSession (r := ⟨n⟩) h
  | host | view | delegate => exact h.release fun _ => id
  | bridge => exact absurd rfl hkind

/-! ### New objects and new references -/

/-- A living object that comes to keep another one alive has its share in the one before to give back. -/
theorem reowned (h : w.Balanced debts) {x : Option Object} (ho : w.isAlive o = true)
    (hshares : v.shares = x.toList.map (Share.mk (.owner o)) ++ w.shares) (hnext : v.next = w.next)
    (howns : v.owned o = x) (howned : ∀ q, q ≠ o → v.owned q = w.owned q) (halive : ∀ p ∈ x, w.isAlive p = true) :
    v.Balanced (w.due o ++ debts) := by
  have hsame : ∀ q, v.isAlive q = w.isAlive q := isAlive_of_owners hshares halive
  refine ⟨fun q hq hkind => ?_, fun q p hmem => ?_, fun s hs => ?_⟩
  · rw [hnext]
    exact h.fresh q ((hsame q).symm.trans hq) hkind
  · rw [hnext]
    rcases List.mem_append.1 hmem with hdue | hmem
    · exact h.debtor_of_due ho hdue
    · exact h.debtors q p hmem
  · have hlink : (x.toList.map (Share.mk (.owner o))).count s + (w.isLink s).toNat =
        (w.due o).count s + (v.isLink s).toNat := by
      rw [due, count_owners, count_owners]
      obtain ⟨holder, p⟩ := s
      cases holder with
      | owner q =>
        by_cases hqo : q = o
        · subst hqo
          rw [isLink_owner, isLink_owner, hsame, ho, howns]
          simp [Nat.add_comm]
        · rw [isLink_owner, isLink_owner, hsame, howned q hqo]
          simp [hqo]
      | embedder | call => simp [isLink]
    rw [hshares, List.count_append, List.count_append, h.count s hs]
    omega

/-- A new object has a share in what it keeps alive, and the embedder has one in the new object. -/
theorem making {kind : ObjectKind} {place : Ref kind → World σ → World σ} (h : w.Balanced debts) {x : Option Object}
    (hplace : u = place ⟨w.next⟩ { w with next := w.next + 1 })
    (hshares : u.shares = x.toList.map (Share.mk (.owner ⟨kind, w.next⟩)) ++ w.shares)
    (hnext : u.next = w.next + 1) (howns : u.owned ⟨kind, w.next⟩ = x)
    (howned : ∀ q, q ≠ ⟨kind, w.next⟩ → u.owned q = w.owned q) (halive : ∀ p ∈ x, w.isAlive p = true) :
    (w.making place).Balanced debts := by
  have hmade : w.making place = u.acquire .embedder ⟨kind, w.next⟩ := by rw [World.making, hplace]; rfl
  have hsame : ∀ q, u.isAlive q = w.isAlive q := isAlive_of_owners hshares halive
  rw [hmade]
  refine ⟨fun q hq hkind => ?_, fun q p hmem => ?_, fun s hs => ?_⟩
  · change q.index < u.next
    rw [hnext]
    rcases isAlive_of_acquire hq with rfl | hq
    · exact Nat.lt_succ_self _
    · exact (h.fresh q ((hsame q).symm.trans hq) hkind).trans (Nat.lt_succ_self _)
  · change q.index < u.next
    rw [hnext]
    exact (h.debtors q p hmem).trans (Nat.lt_succ_self _)
  · have hne : (⟨.embedder, ⟨kind, w.next⟩⟩ : Share) ≠ s := fun heq => hs (heq ▸ rfl)
    have hlink : ((u.acquire .embedder ⟨kind, w.next⟩).isLink s).toNat =
        (x.toList.map (Share.mk (.owner ⟨kind, w.next⟩))).count s + (w.isLink s).toNat := by
      rw [count_owners]
      obtain ⟨holder, p⟩ := s
      cases holder with
      | owner q =>
        by_cases hq : q = ⟨kind, w.next⟩
        · -- the number of the new object was not given out before, so that it had no shares
          subst hq
          have hbefore : w.isLink ⟨.owner ⟨kind, w.next⟩, p⟩ = false := by
            by_cases hkind : kind = .service
            · rw [isLink_owner, owned_of_service hkind]
              simp
            · have hdead : w.isAlive ⟨kind, w.next⟩ = false :=
                eq_false_of_ne_true fun hlives => Nat.lt_irrefl _ (h.fresh _ hlives hkind)
              rw [isLink_owner, hdead, Bool.false_and]
          have howned : (u.acquire .embedder ⟨kind, w.next⟩).owned ⟨kind, w.next⟩ = x := howns
          rw [hbefore, isLink_owner, isAlive_acquire_self, howned]
          simp
        · have hlives : (u.acquire .embedder ⟨kind, w.next⟩).isAlive q = w.isAlive q :=
            (isAlive_acquire_of_ne (Ne.symm hq)).trans (hsame q)
          have howned : (u.acquire .embedder ⟨kind, w.next⟩).owned q = w.owned q := howned q hq
          rw [isLink_owner, isLink_owner, hlives, howned]
          simp [hq]
      | embedder | call => simp [isLink]
    rw [hlink, World.acquire, List.count_cons_of_ne hne, hshares, List.count_append, h.count s hs]
    omega

end Balanced

end SettingsRelay.World
