import SettingsRelay.Proofs.Settlement

/-!
# Reachability

Between deeds an object is alive exactly when it can be reached from what the embedder refers to, along the few
references that keep their targets alive: from a bridge to its context, from a session to its client and from
contexts and clients to their services. No such reference leads to a session, a host, a bridge, a view or a
delegate, so none of the references by which these name each other keeps a group of them alive.

Whatever operations in progress have to give back before some deeds, they have to give back after them, also
where those deeds are done inside the calls of others.
-/

namespace SettingsRelay

variable {σ : Type} {α : Type}

open World (Audited Balanced Undisturbed)

variable {I : Tenet σ}

/-! ## Deeds -/

namespace Op

variable {w : World σ}

theorem settlesFrom_use {o : Object} {body : Op σ Unit} (hbody : body.Settles I []) :
    (use o body).SettlesFrom I [] w := by
  refine settlesFrom_get_bind ?_
  split
  · next halive => exact settlesFrom_holding halive hbody
  · exact settles_pure () w

theorem settles_use {o : Object} {body : Op σ Unit} (hbody : body.Settles I []) : (use o body).Settles I [] :=
  fun _ => settlesFrom_use hbody

theorem settles_useBridge {b : BridgeRef} {body : Op σ Unit} (hbody : body.Settles I []) :
    (useBridge b body).Settles I [] := by
  intro w
  refine settlesFrom_get_bind ?_
  split
  · next halive => exact settlesFrom_holding halive hbody
  · split
    · exact hbody w
    · exact settles_pure () w

theorem settles_useMemory {h : HostRef} {body : Op σ Unit} (hbody : body.Settles I []) :
    (useMemory h body).Settles I [] := by
  refine settles_use fun w => settlesFrom_get_bind ?_
  split
  · exact hbody w
  · exact settles_pure () w

theorem settles_whileAlive {objects : List Object} {body : Op σ Unit}
    (hbody : ∀ w, (∀ o ∈ objects, w.isAlive o = true) → body.SettlesFrom I [] w) :
    (whileAlive objects body).Settles I [] := by
  intro w
  refine settlesFrom_get_bind ?_
  split
  · next hall => exact hbody w (List.all_eq_true.1 hall)
  · exact settles_pure () w

theorem settlesFrom_create {kind : ObjectKind} (put : Ref kind → World σ → World σ) (x : Option Object)
    (hput : ∀ r v, (put r v).shares = v.shares ∧ (put r v).next = v.next)
    (howns : ∀ (r : Ref kind) v, (put r v).owned r.object = x)
    (howned : ∀ (r : Ref kind) v q, q ≠ r.object → (put r v).owned q = v.owned q)
    (halive : ∀ p ∈ x, w.isAlive p = true)
    (hkept : I.holds w → I.holds (put ⟨w.next⟩ { w with next := w.next + 1 })) :
    (create fun r v => (put r v).acquire? (.owner r.object) x : Op σ (Ref kind)).SettlesFrom I [] w := by
  intro react debts _ h
  obtain ⟨hshares, hnext⟩ := hput ⟨w.next⟩ { w with next := w.next + 1 }
  have hmade : (w.making fun (r : Ref kind) v => (put r v).acquire? (.owner r.object) x).Balanced debts := by
    refine h.1.making rfl ?_ ?_ ?_ (fun q hq => ?_) halive <;> rw [World.acquire?_eq]
    · exact congrArg _ hshares
    · exact hnext
    · exact howns ⟨w.next⟩ _
    · exact howned ⟨w.next⟩ _ q hq
  have hholds : I.holds (w.making fun (r : Ref kind) v => (put r v).acquire? (.owner r.object) x) := by
    rw [World.making, World.acquire?_eq]
    exact I.of_same (hkept h.2) rfl rfl rfl
  exact ⟨hmade, hholds⟩

theorem settles_create {kind : ObjectKind} (put : Ref kind → World σ → World σ)
    (hput : ∀ r v, (put r v).shares = v.shares ∧ (put r v).next = v.next)
    (howns : ∀ (r : Ref kind) v, (put r v).owned r.object = none) (howned : ∀ r v q, (put r v).owned q = v.owned q)
    (hkept : ∀ w, I.holds w → I.holds (put ⟨w.next⟩ { w with next := w.next + 1 })) :
    (create put : Op σ (Ref kind)).Settles I [] := fun w =>
  settlesFrom_create put none hput howns (fun r v q _ => howned r v q) (by simp) (hkept w)

end Op

/-- The entry of a new bridge in the registry keeps nothing alive. -/
theorem Bridge.settlesFrom_create {w : World σ} {c : ContextRef} (s : SessionRef) (h : HostRef)
    (halive : w.isAlive c.object = true) : (create c s h : Op σ _).SettlesFrom I [] w := by
  have hplaced : (Op.create fun (r : BridgeRef) v =>
      { v with
        bridges := replaceAt v.bridges r ⟨c, (w.sessions s).id, s, h⟩
        made := r :: v.made }.acquire (.owner r.object) c.object : Op σ BridgeRef).SettlesFrom I [] w := by
    refine Op.settlesFrom_create (fun r v => { v with
      bridges := replaceAt v.bridges r ⟨c, (w.sessions s).id, s, h⟩
      made := r :: v.made }) (some c.object) (fun _ _ => ⟨rfl, rfl⟩) (fun r v => ?_) (fun r v q hq => ?_) ?_ ?_
    · exact congrArg (fun bridge => some (Ref.object (Bridge.context bridge))) (replaceAt_self _ _ _)
    · exact World.owned_congr_at (fun _ _ => rfl) (fun _ _ => rfl) (fun _ _ => rfl) fun b hb =>
        congrArg Bridge.context (replaceAt_of_ne fun heq => hq (heq ▸ hb.symm))
    · simpa using halive
    · exact I.of_undisturbed (.of_hosts (Nat.le_succ _) rfl rfl)
  have hregistered : ∀ b : BridgeRef, (Registry.register c (w.sessions s).id b : Op σ Unit).Settles I [] := fun b _ =>
    Op.settlesFrom_writeCell (fun _ _ => rfl) rfl rfl
      (World.owned_changeContext (f := (·.enter (w.sessions s).id b)) fun _ => rfl) fun h => I.of_same h rfl rfl rfl
  exact Op.settlesFrom_get_bind (hplaced.bind fun b => (hregistered b).bind fun _ => Op.settles_pure b)

/-- A session that changes its client takes its share in the new one before it gives back the other. -/
theorem Session.settlesFrom_changeClient {w : World σ} {s : SessionRef} {client : Option ClientRef}
    (hsession : w.isAlive s.object = true) (halive : ∀ c ∈ client, w.isAlive c.object = true) :
    (changeClient s client : Op σ Unit).SettlesFrom I [] w := by
  intro react debts hfair h
  have hengaged : ((w.acquire? (.owner s.object) (client.map Ref.object)).changeSession s fun session =>
      { session with client }).Balanced (w.due s.object ++ debts) := by
    rw [World.acquire?_eq]
    refine h.1.reowned hsession rfl rfl ?_ (fun q hq => ?_) fun p hp => ?_
    · exact congrArg (fun session => (Session.client session).map Ref.object) (replaceAt_self _ _ _)
    · exact World.owned_congr_at (fun _ _ => rfl) (fun _ _ => rfl)
        (fun t ht => congrArg Session.client (replaceAt_of_ne fun heq => hq (heq ▸ ht.symm))) fun _ _ => rfl
    · obtain ⟨c, hc, rfl⟩ := Option.map_eq_some_iff.1 hp
      exact halive c hc
  have hholds : I.holds ((w.acquire? (.owner s.object) (client.map Ref.object)).changeSession s fun session =>
      { session with client }) := by
    rw [World.acquire?_eq]
    exact I.of_same h.2 rfl rfl rfl
  have hdue : w.due s.object = ((w.sessions s).client.map Ref.object).toList.map (Share.mk (.owner s.object)) := rfl
  rw [changeClient, Op.outcome_get_bind, Op.outcome_bind, Op.outcome_modify]
  rw [hdue] at hengaged
  cases hold : (w.sessions s).client with
  | none =>
    rw [hold] at hengaged
    exact ⟨hengaged, hholds⟩
  | some c =>
    rw [hold] at hengaged
    exact ⟨hengaged.releaseClient, I.releaseQuietly (.owner s.object) c.object hholds⟩

/-- What an application can only do with what is alive: the client of a session is changed through the session. -/
def Deed.IsDue (w : World σ) : Deed → Prop
  | changeClient s _ => w.isAlive s.object = true
  | _ => True

/-- Whether whatever a deed has hosts answer from then on respects a tenet. -/
def Deed.Respects (I : Tenet σ) : Deed → Prop
  | makeHost s => ∀ w, I.holds w → I.holds { w with
      next := w.next + 1
      hosts := replaceAt w.hosts ⟨w.next⟩ (.memory s none) }
  | makeCustomHost s o => ∀ w, I.holds w → I.holds { w with
      next := w.next + 1
      hosts := replaceAt w.hosts ⟨w.next⟩ (.custom s o) }
  | set h change => change.isTaken = true → ∀ w, I.holds w →
      I.holds (w.changeHost h fun host => host.withSettings (change.apply host.settings))
  | setSettings h s => s.validate = .ok () → ∀ w, I.holds w → I.holds (w.changeHost h (·.withSettings s))
  | customize h s o => ∀ w, (w.hosts h).isInMemory = false → I.holds w →
      I.holds (w.changeHost h fun _ => .custom s o)
  | _ => True

/-- Every deed gives back what it takes, if it is due where it is done. -/
theorem Deed.settlesFrom_perform {w : World σ} {deed : Deed} (hdue : deed.IsDue w) (hkept : deed.Respects I) :
    (deed.perform : Op σ Unit).SettlesFrom I [] w := by
  have hmember : ∀ {kind : ObjectKind} {r : Option (Ref kind)} {w : World σ},
      (∀ o ∈ (r.map Ref.object).toList, w.isAlive o = true) → ∀ p ∈ r.map Ref.object, w.isAlive p = true :=
    fun hall p hp => hall p (Option.mem_toList.2 hp)
  have hmade : ∀ {v u : World σ}, u.next = v.next + 1 → u.embedder = v.embedder → u.hosts = v.hosts →
      I.holds v → I.holds u := fun hnext hembedder hhosts =>
    I.of_undisturbed (.of_hosts (hnext ▸ Nat.le_succ _) hembedder hhosts)
  cases deed with
  | makeService =>
    exact (Op.settles_create (fun r v => { v with services := replaceAt v.services r {} })
      (fun _ _ => ⟨rfl, rfl⟩) (fun _ _ => rfl) (fun _ _ _ => rfl) fun _ => hmade rfl rfl rfl).ignore w
  | makeContext switches service =>
    refine Op.settles_whileAlive (fun v hall => Op.SettlesFrom.bind ?_ fun _ => Op.settles_pure ()) w
    exact Op.settlesFrom_create (fun r v => { v with contexts := replaceAt v.contexts r { switches, service } }) _
      (fun _ _ => ⟨rfl, rfl⟩)
      (fun r v => congrArg (fun c => (Context.service c).map Ref.object) (replaceAt_self _ _ _))
      (fun r v q hq => World.owned_congr_at
        (fun t ht => congrArg Context.service (replaceAt_of_ne fun heq => hq (heq ▸ ht.symm)))
        (fun _ _ => rfl) (fun _ _ => rfl) fun _ _ => rfl) (hmember hall) (hmade rfl rfl rfl)
  | makeClient service =>
    refine Op.settles_whileAlive (fun v hall => Op.SettlesFrom.bind ?_ fun _ => Op.settles_pure ()) w
    exact Op.settlesFrom_create (fun r v => { v with clients := replaceAt v.clients r { service } }) _
      (fun _ _ => ⟨rfl, rfl⟩)
      (fun r v => congrArg (fun c => (Client.service c).map Ref.object) (replaceAt_self _ _ _))
      (fun r v q hq => World.owned_congr_at (fun _ _ => rfl)
        (fun t ht => congrArg Client.service (replaceAt_of_ne fun heq => hq (heq ▸ ht.symm)))
        (fun _ _ => rfl) fun _ _ => rfl) (hmember hall) (hmade rfl rfl rfl)
  | makeSession session =>
    refine Op.settles_whileAlive (fun v hall => Op.SettlesFrom.bind ?_ fun _ => Op.settles_pure ()) w
    exact Op.settlesFrom_create (fun r v => { v with sessions := replaceAt v.sessions r session }) _
      (fun _ _ => ⟨rfl, rfl⟩)
      (fun r v => congrArg (fun c => (Session.client c).map Ref.object) (replaceAt_self _ _ _))
      (fun r v q hq => World.owned_congr_at (fun _ _ => rfl) (fun _ _ => rfl)
        (fun t ht => congrArg Session.client (replaceAt_of_ne fun heq => hq (heq ▸ ht.symm)))
        fun _ _ => rfl) (hmember hall) (hmade rfl rfl rfl)
  | makeHost settings =>
    exact (Op.settles_create (fun r v => { v with hosts := replaceAt v.hosts r (.memory settings none) })
      (fun _ _ => ⟨rfl, rfl⟩) (fun _ _ => rfl) (fun _ _ _ => rfl) hkept).ignore w
  | makeCustomHost settings overrides =>
    exact (Op.settles_create (fun r v => { v with hosts := replaceAt v.hosts r (.custom settings overrides) })
      (fun _ _ => ⟨rfl, rfl⟩) (fun _ _ => rfl) (fun _ _ _ => rfl) hkept).ignore w
  | makeView | makeDelegate =>
    exact (Op.settles_create (fun _ v => v) (fun _ _ => ⟨rfl, rfl⟩) (fun _ _ => rfl) (fun _ _ _ => rfl)
      fun _ => hmade rfl rfl rfl).ignore w
  | makeBridge c s h =>
    refine Op.settles_whileAlive (fun v hall => ?_) w
    exact (Bridge.settlesFrom_create s h (hall _ (by simp))).bind fun _ => Op.settles_pure ()
  | keep o =>
    refine Op.settles_whileAlive (fun v hall => ?_) w
    exact Op.settlesFrom_modify (fun debts h => (h.acquire (.inl (hall o (by simp))) (by simp)).of_embedder)
      fun h => I.of_same h rfl rfl rfl
  | drop o =>
    intro react debts hfair h
    exact Op.settles_release .embedder o w react debts hfair ⟨h.1.with_embedder o, h.2⟩
  | act b action => exact Op.settles_useBridge (Bridge.settles_perform b action) w
  | populate b p => exact Op.settles_useBridge (Bridge.settles_populate b p).ignore w
  | populateFor c s p => exact Op.settles_use (Op.settles_use (Bridge.settles_populateFor c s p).ignore) w
  | lookUp c id =>
    refine Op.settles_use (Op.settles_upgradeIn_bind (.registry c) (g := fun v => (v.contexts c).entered? id)
      (fun _ _ => rfl) (Op.settles_pure ()) fun b => ?_) w
    exact Op.settles_release .call b.object
  | countBridges c => exact Op.settles_use (Op.settles_readCell _ _).ignore w
  | attach h b => exact Op.settles_useMemory (Op.settles_use (Host.settles_attach h b)) w
  | set h change => exact Op.settles_useMemory (Host.settles_set h hkept) w
  | setSettings h settings => exact Op.settles_useMemory (Host.settles_setSettings h hkept).ignore w
  | readSettings h => exact Op.settles_use (Op.settles_readHost h _).ignore w
  | hasBridge h => exact Op.settles_useMemory (Op.settles_readCell _ _).ignore w
  | customize h settings overrides =>
    refine Op.settlesFrom_get_bind ?_
    split
    · next hcustom => exact Op.settlesFrom_change rfl rfl (fun _ => rfl) (hkept w (by simpa using hcustom))
    · exact Op.settles_pure () w
  | remodel s hasExtension hasViewHost entries =>
    exact Session.settles_change s (fun session => { session with hasExtension, hasViewHost, entries })
      (fun _ => rfl) w
  | changeClient s client =>
    refine Op.settlesFrom_get_bind ?_
    split
    · next hall =>
      exact Session.settlesFrom_changeClient hdue fun c hc =>
        List.all_eq_true.1 hall c.object (by simp [Option.mem_def.1 hc])
    · exact Op.settles_pure () w
  | setView c v => exact Op.settles_use (Client.settles_setView c v) w
  | setSaveFormData c enabled => exact Op.settles_use (Client.settles_setSaveFormData c enabled) w
  | select c position => exact Op.settles_use (Client.settles_select c position) w
  | readSuggestions c => exact Op.settles_use (Client.settles_readSuggestions c).ignore w
  | ask c question => exact Op.settles_use (Capability.settles_ask c question).ignore w

namespace World

variable {note : Notes σ} {w v : World σ} {debts : List Share} {o q : Object}

/-- Whatever is owed before some deeds is owed after them, also where they are done during a call, and a tenet
that they respect is kept. -/
theorem EvolvesBy.audited {rule : World σ → Deed → Prop} (hrule : ∀ u d, rule u d → d.IsDue u ∧ d.Respects I)
    (hnote : ∀ c debts a, Audited I debts a → I.holds (a.noted note c)) (h : EvolvesBy rule note w v) :
    ∀ debts, Audited I debts w → Audited I debts v := by
  have hnoted : ∀ {debts a} c, Audited I debts a → Audited I debts (a.noted note c) := fun c ha =>
    ⟨ha.1.of_same rfl rfl fun _ => rfl, hnote c _ _ ha⟩
  induction h with
  | still w => exact fun _ hw => hw
  | @deed w v _ deed allowed react _ ih hduring =>
    intro debts hw
    obtain ⟨hdue, hkept⟩ := hrule v deed allowed
    refine hnoted none (Deed.settlesFrom_perform hdue hkept react debts (fun c shares u hu => ?_) (ih debts hw))
    exact hduring c u shares (hnoted (some c) hu)

/-! ## Who is alive -/

/-- Whether a living object refers to an object in such a way that it keeps it alive. -/
def IsReferred (w : World σ) : Object → Prop
  | ⟨.context, n⟩ => ∃ b : BridgeRef, w.isAlive b.object = true ∧ (w.bridges b).context = ⟨n⟩
  | ⟨.service, n⟩ =>
    (∃ c : ContextRef, w.isAlive c.object = true ∧ (w.contexts c).service = some ⟨n⟩) ∨
      ∃ c : ClientRef, w.isAlive c.object = true ∧ (w.clients c).service = some ⟨n⟩
  | ⟨.client, n⟩ => ∃ s : SessionRef, w.isAlive s.object = true ∧ (w.sessions s).client = some ⟨n⟩
  | _ => False

theorem isReferred_of_owned (halive : w.isAlive q = true) (howned : w.owned q = some o) : w.IsReferred o := by
  obtain ⟨kind, n⟩ := q
  cases kind with
  | context =>
    obtain ⟨p, hp, rfl⟩ := Option.map_eq_some_iff.1 howned
    exact .inl ⟨⟨n⟩, halive, hp⟩
  | client =>
    obtain ⟨p, hp, rfl⟩ := Option.map_eq_some_iff.1 howned
    exact .inr ⟨⟨n⟩, halive, hp⟩
  | session =>
    obtain ⟨c, hc, rfl⟩ := Option.map_eq_some_iff.1 howned
    exact ⟨⟨n⟩, halive, hc⟩
  | bridge =>
    cases howned
    exact ⟨⟨n⟩, halive, rfl⟩
  | service | host | view | delegate => cases howned

theorem exists_owner (h : w.IsReferred o) : ∃ q, w.isAlive q = true ∧ w.owned q = some o := by
  obtain ⟨kind, n⟩ := o
  cases kind with
  | context =>
    obtain ⟨b, halive, hb⟩ := h
    exact ⟨b.object, halive, congrArg (fun c : ContextRef => some c.object) hb⟩
  | service =>
    rcases h with ⟨c, halive, hc⟩ | ⟨c, halive, hc⟩
    · exact ⟨c.object, halive, congrArg (Option.map Ref.object) hc⟩
    · exact ⟨c.object, halive, congrArg (Option.map Ref.object) hc⟩
  | client =>
    obtain ⟨s, halive, hs⟩ := h
    exact ⟨s.object, halive, congrArg (Option.map Ref.object) hs⟩
  | session | host | bridge | view | delegate => exact h.elim

/-- In balanced books an object is alive for the embedder, for a living object that refers to it, or for an
operation in progress. -/
theorem Balanced.isAlive_iff (h : w.Balanced debts) (o : Object) :
    w.isAlive o = true ↔
      ⟨.embedder, o⟩ ∈ w.shares ∨ w.IsReferred o ∨ ∃ holder, holder ≠ .embedder ∧ ⟨holder, o⟩ ∈ debts := by
  rw [World.isAlive_iff]
  constructor
  · rintro ⟨holder, hmem⟩
    by_cases hholder : holder = .embedder
    · exact .inl (hholder ▸ hmem)
    · by_cases hdebt : ⟨holder, o⟩ ∈ debts
      · exact .inr (.inr ⟨holder, hholder, hdebt⟩)
      · -- a share that nobody owes is a living object's
        have hpos := List.count_pos_iff.2 hmem
        rw [h.count _ hholder, List.count_eq_zero_of_not_mem hdebt, Nat.zero_add] at hpos
        have hlink : w.isLink ⟨holder, o⟩ = true := by
          cases hvalue : w.isLink ⟨holder, o⟩ with
          | true => rfl
          | false => simp [hvalue] at hpos
        cases holder with
        | owner q =>
          rw [isLink_owner, Bool.and_eq_true, decide_eq_true_eq] at hlink
          exact .inr (.inl (isReferred_of_owned hlink.1 hlink.2))
        | embedder | call => cases hlink
  · rintro (hmem | hreferred | ⟨holder, hholder, hmem⟩)
    · exact ⟨_, hmem⟩
    · obtain ⟨q, halive, howned⟩ := exists_owner hreferred
      have hlink : w.isLink ⟨.owner q, o⟩ = true := by simp [isLink_owner, halive, howned]
      refine ⟨.owner q, List.count_pos_iff.1 ?_⟩
      rw [h.count _ (by simp), hlink]
      exact Nat.succ_pos _
    · refine ⟨holder, List.count_pos_iff.1 ?_⟩
      rw [h.count _ hholder]
      exact Nat.add_pos_left (List.count_pos_iff.2 hmem) _

/-- Whatever the embedder does not keep, directly or by what it keeps, is dead. References that keep something
alive lead from bridges and sessions by way of contexts and clients to services, and never back. -/
theorem Balanced.isAlive_of_released (h : w.Balanced []) (hreleased : ∀ o, ⟨.embedder, o⟩ ∉ w.shares) (o : Object) :
    w.isAlive o = false := by
  have hdead : ∀ {o}, ¬w.IsReferred o → w.isAlive o = false := fun {o} hreferred =>
    eq_false_of_ne_true fun halive => by
      rcases (h.isAlive_iff o).1 halive with hmem | hkept | ⟨_, _, hmem⟩
      · exact hreleased o hmem
      · exact hreferred hkept
      · cases hmem
  have hbridge : ∀ b : BridgeRef, w.isAlive b.object = false := fun _ => hdead id
  have hsession : ∀ s : SessionRef, w.isAlive s.object = false := fun _ => hdead id
  have hcontext : ∀ c : ContextRef, w.isAlive c.object = false := fun _ =>
    hdead fun ⟨b, halive, _⟩ => by rw [hbridge] at halive; cases halive
  have hclient : ∀ c : ClientRef, w.isAlive c.object = false := fun _ =>
    hdead fun ⟨s, halive, _⟩ => by rw [hsession] at halive; cases halive
  obtain ⟨kind, n⟩ := o
  cases kind with
  | service =>
    refine hdead ?_
    rintro (⟨c, halive, _⟩ | ⟨c, halive, _⟩)
    · rw [hcontext] at halive
      cases halive
    · rw [hclient] at halive
      cases halive
  | context => exact hcontext ⟨n⟩
  | client => exact hclient ⟨n⟩
  | session => exact hsession ⟨n⟩
  | bridge => exact hbridge ⟨n⟩
  | host | view | delegate => exact hdead id

theorem EvolvesBy.balanced (h : EvolvesBy Deed.IsDue note w v) (hw : w.Balanced debts) : v.Balanced debts := by
  let any : Tenet σ := ⟨fun _ => True, fun _ _ => trivial⟩
  have hrespects : ∀ deed : Deed, deed.Respects any := fun deed => by
    cases deed <;> simp [Deed.Respects, any]
  exact (h.audited (I := any) (fun u d hdue => ⟨hdue, hrespects d⟩) (fun _ _ _ _ => trivial) debts ⟨hw, trivial⟩).1

theorem EvolvesBy.balanced_seen {w : World Diary} (h : EvolvesBy Deed.IsDue Diary.note { embedder := [] } w) :
    ∀ v ∈ w.seen, ∃ debts, v.Balanced debts := by
  let noted : Tenet Diary :=
    { holds u := ∀ e ∈ u.embedder, ∃ debts, e.2.Balanced debts
      of_undisturbed hsame hu := hsame.embedder.symm ▸ hu }
  have hrespects : ∀ deed : Deed, deed.Respects noted := fun deed => by
    cases deed <;> simp [Deed.Respects, noted, changeHost]
  obtain ⟨hbalanced, hdiary⟩ := h.audited (I := noted) (fun u d hdue => ⟨hdue, hrespects d⟩)
    (fun c debts a ha => List.forall_mem_cons.2 ⟨⟨debts, (balanced_bare (w := a)).2 ha.1⟩, ha.2⟩) []
    ⟨.initial [], List.forall_mem_nil _⟩
  intro v hv
  rcases List.mem_cons.1 hv with rfl | hv
  · exact ⟨[], balanced_bare.2 hbalanced⟩
  · obtain ⟨e, he, rfl⟩ := List.mem_map.1 hv
    exact hdiary e he

end World

/-- Between an application's own deeds an object is alive exactly when the embedder or a living object keeps it. Once
the embedder has let everything go, everything is dead. -/
theorem alive_iff_referred :
    (∀ {note : Notes σ} {w v : World σ}, World.EvolvesBy Deed.IsDue note w v →
      ∀ debts, w.Balanced debts → v.Balanced debts) ∧
    ∀ {w : World Diary}, World.EvolvesBy Deed.IsDue Diary.note { embedder := [] } w →
      (∀ v ∈ w.seen, ∃ debts, v.Balanced debts ∧ ∀ o, v.isAlive o = true ↔
        ⟨.embedder, o⟩ ∈ v.shares ∨ v.IsReferred o ∨ ∃ holder, holder ≠ .embedder ∧ ⟨holder, o⟩ ∈ debts) ∧
      (∀ o, w.isAlive o = true ↔ ⟨.embedder, o⟩ ∈ w.shares ∨ w.IsReferred o) ∧
      ((∀ o, ⟨.embedder, o⟩ ∉ w.shares) →
        (∀ o, w.isAlive o = false) ∧ ∀ b ∈ w.made, b ∈ w.farewells.map Farewell.bridge) := by
  refine ⟨fun h _ => h.balanced, fun {w} h => ⟨fun v hv => ?_, fun o => ?_, fun hreleased => ?_⟩⟩
  · obtain ⟨debts, hv⟩ := h.balanced_seen v hv
    exact ⟨debts, hv, hv.isAlive_iff⟩
  · simpa using (h.balanced (.initial [])).isAlive_iff o
  · have hdead := (h.balanced (.initial [])).isAlive_of_released hreleased
    have hended : w.bare.Ended := World.Ended.of_seen h.evolves _ List.mem_cons_self
    exact ⟨hdead, fun b hb => (hended.mem_iff b).2 ⟨hb, hdead b.object⟩⟩

/-- All objects refer to each other, and while a change is carried the embedder lets everything go. What the change
needs lives until it is done, and nothing any longer. -/
theorem released_ring_is_gone : ∃ (v w : World Diary) (react : Reaction Diary),
    World.EvolvesBy Deed.IsDue Diary.note { embedder := [] } v ∧ World.EvolvesBy Deed.IsDue Diary.note v w ∧
    v.Balanced [] ∧ w.Balanced [] ∧
    (v.bare.isAlive ⟨.service, 0⟩ = true ∧ ⟨.embedder, ⟨.service, 0⟩⟩ ∉ v.bare.shares) ∧
    w = ((Deed.set ⟨4⟩ (.javascriptEnabled false)).perform.outcome react v).2.noted Diary.note none ∧
    (∀ o, w.isAlive o = false) ∧ w.bare.farewells = [⟨⟨5⟩, some ⟨4⟩⟩] ∧
    w.seen.any (fun u => u.shares.all (·.holder ≠ .embedder) && u.isAlive ⟨.host, 4⟩ && u.isAlive ⟨.service, 0⟩)
      = true := by
  let deeds : List Deed :=
    [.makeService, .makeContext {} (some ⟨0⟩), .makeClient (some ⟨0⟩), .makeSession { id := ⟨7⟩, client := some ⟨2⟩ },
      .makeHost {}, .makeBridge ⟨1⟩ ⟨3⟩ ⟨4⟩, .attach ⟨4⟩ ⟨5⟩, .makeView, .makeDelegate, .setView ⟨2⟩ ⟨6⟩,
      .ask ⟨2⟩ (.showPopup ⟨.ofNat 0, .ofNat 0, .ofNat 8, .ofNat 8⟩ .leftToRight [] (some ⟨7⟩)),
      .drop ⟨.service, 0⟩, .drop ⟨.context, 1⟩, .drop ⟨.client, 2⟩]
  let drops : List Deed :=
    [.drop ⟨.bridge, 5⟩, .drop ⟨.session, 3⟩, .drop ⟨.host, 4⟩, .drop ⟨.delegate, 7⟩, .drop ⟨.view, 6⟩]
  let v : World Diary := World.after Diary.note deeds { embedder := [] }
  let react : Reaction Diary := fun c u => World.after Diary.note drops (u.noted Diary.note (some c))
  let change : Deed := .set ⟨4⟩ (.javascriptEnabled false)
  let w : World Diary := (change.perform.outcome react v).2.noted Diary.note none
  have hdrops : ∀ c u, World.EvolvesBy Deed.IsDue Diary.note (u.noted Diary.note (some c)) (react c u) := fun c u =>
    World.evolvesBy_after Diary.note drops (by simp [drops, Deed.IsDue]) (.still _)
  have hv : World.EvolvesBy Deed.IsDue Diary.note { embedder := [] } v :=
    World.evolvesBy_after Diary.note deeds (by simp [deeds, Deed.IsDue]) (.still _)
  have hvw : World.EvolvesBy Deed.IsDue Diary.note v w := .deed (.still v) change trivial react hdrops
  have hbalanced : v.Balanced [] := alive_iff_referred.1 hv [] (.initial [])
  obtain ⟨_, _, hreleased⟩ := (alive_iff_referred (σ := Diary)).2 (.deed hv change trivial react hdrops)
  have hnone : w.shares = [] := by decide +kernel
  obtain ⟨hdead, _⟩ := hreleased fun o => by
    rw [hnone]
    exact List.not_mem_nil
  exact ⟨v, w, react, hv, hvw, hbalanced, alive_iff_referred.1 hvw [] hbalanced, by decide +kernel, rfl, hdead,
    by decide +kernel, by decide +kernel⟩

end SettingsRelay
