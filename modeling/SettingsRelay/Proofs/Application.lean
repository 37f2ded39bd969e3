import SettingsRelay.Proofs.Lifecycle
import SettingsRelay.Proofs.Popup

/-!
# Applications

What an application with its engine can do, at any time and also whenever it is called: use every
operation on whatever objects are alive, and keep and drop references as it likes. A world evolves
by such deeds. During each of them every call is answered by more deeds, to any depth, and the
application notes the worlds that it sees: when it is called and after each deed.
-/

namespace SettingsRelay

variable {σ : Type} {α : Type}

open World (Carry Move Leads)

namespace Op

def whileAlive (objects : List Object) (body : Op σ Unit) : Op σ Unit := do
  if objects.all (← get).isAlive then body

/-- Uses an object, if it is alive, and keeps it alive for as long. -/
def use (o : Object) (body : Op σ Unit) : Op σ Unit := do
  if (← get).isAlive o then holding o body

/-- Uses a bridge. Its host still may while the bridge is torn down, which nobody keeps alive then.
-/
def useBridge (b : BridgeRef) (body : Op σ Unit) : Op σ Unit := do
  let w ← get
  if w.isAlive b.object then holding b.object body
  else if ⟨.owner b.object, (w.bridges b).context.object⟩ ∈ w.shares then body

def useMemory (h : HostRef) (body : Op σ Unit) : Op σ Unit :=
  use h.object do if ((← get).hosts h).isInMemory then body

end Op

/-- What an application or its engine does of its own accord. -/
inductive Deed where
  /- Making objects. -/
  | makeService
  | makeContext (switches : Switches) (service : Option ServiceRef)
  | makeClient (service : Option ServiceRef)
  | makeSession (session : Session)
  | makeHost (settings : Settings)
  | makeCustomHost (settings : Settings) (overrides : Overrides)
  | makeView
  | makeDelegate
  | makeBridge (c : ContextRef) (s : SessionRef) (h : HostRef)
  /- Keeping and letting go. -/
  | keep (o : Object)
  | drop (o : Object)
  /- Bridges and contexts. -/
  | act (b : BridgeRef) (action : BridgeAction)
  | populate (b : BridgeRef) (p : Preferences)
  | populateFor (c : ContextRef) (s : SessionRef) (p : Preferences)
  | lookUp (c : ContextRef) (id : SessionId)
  | countBridges (c : ContextRef)
  /- Hosts. -/
  | attach (h : HostRef) (b : BridgeRef)
  | set (h : HostRef) (change : Change)
  | setSettings (h : HostRef) (settings : Settings)
  | readSettings (h : HostRef)
  | hasBridge (h : HostRef)
  | customize (h : HostRef) (settings : Settings) (overrides : Overrides)
  /- Sessions and clients. -/
  | remodel (s : SessionRef) (hasExtension hasViewHost : Bool) (entries : List Bool)
  | changeClient (s : SessionRef) (client : Option ClientRef)
  | setView (c : ClientRef) (v : ViewRef)
  | setSaveFormData (c : ClientRef) (enabled : Bool)
  | select (c : ClientRef) (position : Nat)
  | readSuggestions (c : ClientRef)
  | ask (c : ClientRef) (question : Capability)

open Op in
def Deed.perform : Deed → Op σ Unit
  | makeService => do let _ ← Service.create
  | makeContext switches service =>
    whileAlive (service.map Ref.object).toList do let _ ← Context.create switches service
  | makeClient service =>
    whileAlive (service.map Ref.object).toList do let _ ← Client.create service
  | makeSession session =>
    whileAlive (session.client.map Ref.object).toList do let _ ← Session.create session
  | makeHost settings => do let _ ← Host.create settings
  | makeCustomHost settings overrides => do let _ ← Host.createCustom settings overrides
  | makeView => do let _ ← View.create
  | makeDelegate => do let _ ← Delegate.create
  | makeBridge c s h => whileAlive [c.object, s.object] do let _ ← Bridge.create c s h
  | keep o => whileAlive [o] (modify (·.acquire .embedder o))
  | drop o => release .embedder o
  | act b action => useBridge b (action.perform b)
  | populate b p => useBridge b do let _ ← Bridge.populate b p
  | populateFor c s p =>
    use c.object <| use s.object do let _ ← Bridge.populateFor c s p
  | lookUp c id =>
    use c.object do
      match ← Registry.find? c id with
      | some b => release .call b.object
      | none => return
  | countBridges c => use c.object do let _ ← Registry.count c
  | attach h b => useMemory h (use b.object (Host.attach h b))
  | set h change => useMemory h (Host.set h change)
  | setSettings h settings => useMemory h do let _ ← Host.setSettings h settings
  | readSettings h => use h.object do let _ ← Host.readSettings h
  | hasBridge h => useMemory h do let _ ← Host.hasBridge h
  | customize h settings overrides => do
    if !((← get).hosts h).isInMemory then modify (·.changeHost h fun _ => .custom settings overrides)
  | remodel s hasExtension hasViewHost entries =>
    modify (·.changeSession s fun session => { session with hasExtension, hasViewHost, entries })
  | changeClient s client =>
    whileAlive (client.map Ref.object).toList (Session.changeClient s client)
  | setView c v => use c.object (Client.setView c v)
  | setSaveFormData c enabled => use c.object (Client.setSaveFormData c enabled)
  | select c position => use c.object (Client.select c position)
  | readSuggestions c => use c.object do let _ ← Client.readSuggestions c
  | ask c question => use c.object do let _ ← question.ask c

/-! ## Deeds are moves -/

namespace Op

theorem moves_whileAlive {objects : List Object} {body : Op σ Unit}
    (hbody : ∀ w, (∀ o ∈ objects, w.isAlive o = true) → body.MovesFrom Move w) :
    (whileAlive objects body).Moves Move := by
  intro w
  refine movesFrom_get_bind ?_
  split
  · next hall => exact hbody w (List.all_eq_true.1 hall)
  · exact moves_pure () w

theorem movesFrom_use {w : World σ} {o : Object} {body : Op σ Unit}
    (hbody : w.isAlive o = true → body.MovesFrom Move (w.acquire .call o)) :
    (use o body).MovesFrom Move w := by
  refine movesFrom_get_bind ?_
  split
  · next halive => exact movesFrom_holding halive (hbody halive)
  · exact moves_pure () w

theorem moves_use {o : Object} {body : Op σ Unit}
    (hbody : ∀ w : World σ, w.isAlive o = true → body.MovesFrom Move w) : (use o body).Moves Move :=
  fun _ => movesFrom_use fun _ => hbody _ World.isAlive_acquire_self

theorem moves_useBridge {b : BridgeRef} {body : Op σ Unit} (hbody : body.Moves Move) :
    (useBridge b body).Moves Move := by
  intro w
  refine movesFrom_get_bind ?_
  split
  · next halive => exact movesFrom_holding halive (hbody _)
  · split
    · exact hbody w
    · exact moves_pure () w

theorem moves_useMemory {h : HostRef} {body : Op σ Unit} (hbody : body.Moves Move) :
    (useMemory h body).Moves Move := by
  refine moves_use fun w _ => movesFrom_get_bind ?_
  split
  · exact hbody w
  · exact moves_pure () w

theorem Moves.ignore {op : Op σ α} (h : op.Moves Move) :
    (do let _ ← op : Op σ Unit).Moves Move := h.bind fun _ => moves_pure ()

theorem movesFrom_create {kind : ObjectKind} {w : World σ} {place : Ref kind → World σ → World σ}
    (m : Move w none (w.making place)) : (do let _ ← Op.create place : Op σ Unit).MovesFrom Move w :=
  fun _ => .of_move m

end Op

theorem Session.movesFrom_changeClient {w : World σ} (s : SessionRef) {client : Option ClientRef}
    (halive : ∀ c ∈ client, w.isAlive c.object = true) :
    (changeClient s client : Op σ Unit).MovesFrom Move w := by
  refine Op.movesFrom_get_bind ?_
  refine Op.movesFrom_modify_bind (.engage w s client halive) ?_
  split
  · next c _ => exact Op.movesFrom_modify (.dismiss _ s c)
  · exact Op.moves_pure () _

theorem Deed.moves_perform (deed : Deed) : (deed.perform : Op σ Unit).Moves Move := by
  have hmember : ∀ {kind : ObjectKind} {r : Option (Ref kind)} {w : World σ},
      (∀ o ∈ (r.map Ref.object).toList, w.isAlive o = true) → ∀ x ∈ r, w.isAlive x.object = true := by
    intro kind r w hall x hx
    exact hall _ (by simp [Option.mem_def.1 hx])
  cases deed with
  | makeService => exact fun w => Op.movesFrom_create (.makeService w)
  | makeContext switches service =>
    exact Op.moves_whileAlive fun w hall =>
      Op.movesFrom_create (.makeContext w switches service (hmember hall))
  | makeClient service =>
    exact Op.moves_whileAlive fun w hall =>
      Op.movesFrom_create (.makeClient w service (hmember hall))
  | makeSession session =>
    exact Op.moves_whileAlive fun w hall =>
      Op.movesFrom_create (.makeSession w session (hmember hall))
  | makeHost settings => exact fun w => Op.movesFrom_create (.makeHost w settings)
  | makeCustomHost settings overrides =>
    exact fun w => Op.movesFrom_create (.makeCustomHost w settings overrides)
  | makeView => exact fun w => Op.movesFrom_create (.makeView w)
  | makeDelegate => exact fun w => Op.movesFrom_create (.makeDelegate w)
  | makeBridge c s h =>
    refine Op.moves_whileAlive fun w hall react => ?_
    rw [Op.outcome_bind, Bridge.outcome_create]
    exact .of_move (.makeBridge w c s h (hall _ (by simp)) (hall _ (by simp)))
  | keep o =>
    exact Op.moves_whileAlive fun w hall => Op.movesFrom_modify (.keep w o (hall o (by simp)))
  | drop o => exact Op.moves_release_embedder o
  | act b action => exact Op.moves_useBridge (Bridge.moves_perform action b)
  | populate b p =>
    exact Op.moves_useBridge ((Bridge.moves_populate b p).mono fun _ _ _ => .carry).ignore
  | populateFor c s p =>
    exact Op.moves_use fun w _ =>
      Op.moves_use (fun v _ => (Bridge.moves_populateFor c s p).ignore v) w
  | lookUp c id =>
    refine Op.moves_use fun w _ => ?_
    refine (((Registry.moves_find? c id).mono fun _ _ _ => .carry).bind fun found => ?_) w
    cases found with
    | none => exact Op.moves_pure ()
    | some b => exact Op.moves_release_call b.object
  | countBridges c =>
    exact Op.moves_use fun w _ => ((Registry.moves_count c).mono fun _ _ _ => .carry).ignore w
  | attach h b =>
    refine Op.moves_use fun w hhost => Op.movesFrom_get_bind ?_
    split
    · exact Op.movesFrom_use fun _ =>
        Host.movesFrom_attach (World.isAlive_acquire_of_alive hhost) World.isAlive_acquire_self
    · exact Op.moves_pure () w
  | set h change => exact Op.moves_useMemory (Host.moves_set h change)
  | setSettings h settings => exact Op.moves_useMemory (Host.moves_setSettings h settings).ignore
  | readSettings h => exact Op.moves_use fun w _ => (Host.moves_readSettings h).ignore w
  | hasBridge h => exact Op.moves_useMemory (Host.moves_hasBridge h).ignore
  | customize h settings overrides =>
    intro w
    refine Op.movesFrom_get_bind ?_
    split
    · next hcustom => exact Op.movesFrom_modify (.customize w h settings overrides (by simpa using hcustom))
    · exact Op.moves_pure () w
  | remodel s hasExtension hasViewHost entries =>
    exact fun w => Op.movesFrom_modify (.remodel w s hasExtension hasViewHost entries)
  | changeClient s client =>
    exact Op.moves_whileAlive fun w hall => Session.movesFrom_changeClient s (hmember hall)
  | setView c v => exact Op.moves_use fun w _ => Client.moves_setView c v w
  | setSaveFormData c enabled =>
    exact Op.moves_use fun w _ => (Client.moves_setSaveFormData c enabled w).mono fun _ _ _ => .carry
  | select c position => exact Op.moves_use fun w _ => Client.moves_select c position w
  | readSuggestions c => exact Op.moves_use fun w _ => (Client.moves_readSuggestions c).ignore w
  | ask c question => exact Op.moves_use fun w _ => (Capability.moves_ask c question).ignore w

/-- No move leaves a lease open, and what the embedder keeps is not theirs. -/
theorem World.Move.frame {w v : World σ} {call : Option Call} (m : Move w call v) :
    v.leases = w.leases ∧ v.embedder = w.embedder := by
  have hsheds : ∀ {holder o} {v : World σ}, World.Sheds holder o w v →
      v.leases = w.leases ∧ v.embedder = w.embedder := by
    intro holder o v h
    rw [h.same]
    exact ⟨rfl, rfl⟩
  cases m with
  | carry h =>
    cases h with
    | call | lease | hold | agent | entry | saveFormData => exact ⟨rfl, rfl⟩
    | letGo o _ => exact hsheds (World.sheds_releaseQuietly w .call o)
  | engage s client _ => cases client <;> exact ⟨rfl, rfl⟩
  | dismiss s c => exact hsheds (World.sheds_releaseClient w _ c)
  | makeContext _ service _ | makeClient service _ => cases service <;> exact ⟨rfl, rfl⟩
  | makeSession session _ => cases hc : session.client <;> exact ⟨rfl, rfl⟩
  | drop o _ => exact hsheds (World.sheds_releaseQuietly w .embedder o)
  | bury holder b _ _ =>
    rw [World.parted_eq, World.bury_eq]
    exact ⟨rfl, rfl⟩
  | part b c => exact hsheds (World.sheds_releaseContext w _ c)
  | _ => exact ⟨rfl, rfl⟩

/-! ## Evolution -/

/-- What an application notes of a call, or between deeds, in a world. -/
abbrev Notes (σ : Type) := Option Call → World σ → σ

def World.noted (note : Notes σ) (c : Option Call) (w : World σ) : World σ :=
  { w with embedder := note c w }

/-- A world evolves by deeds, and so does each world in which a call is made during one of them
until that call returns. -/
inductive World.Evolves (note : Notes σ) : World σ → World σ → Prop where
  | still (w : World σ) : Evolves note w w
  | deed {w v : World σ} (before : Evolves note w v) (deed : Deed) (react : Reaction σ)
      (during : ∀ c u, Evolves note (u.noted note (some c)) (react c u)) :
      Evolves note w ((deed.perform.outcome react v).2.noted note none)

/-- A world that has evolved from one without objects. -/
def World.Reached (note : Notes σ) (start : σ) (w : World σ) : Prop :=
  Evolves note { embedder := start } w

namespace World.Evolves

variable {note : Notes σ} {w v u : World σ}

/-- What every move keeps, with a call noted as soon as it is made, is kept by evolution. -/
theorem keeps {I : World σ → Prop} (hmove : ∀ a b, Move a none b → I a → I b)
    (hcall : ∀ a c b, Move a (some c) b → I a → I (b.noted note (some c)))
    (hnote : ∀ a, I a → I (a.noted note none)) (h : Evolves note w v) : I w → I v := by
  induction h with
  | still w => exact id
  | @deed w v _ deed react _ ih during =>
    intro hw
    refine hnote _ ((deed.moves_perform v react).keeps (fun a call b m ha => ?_) (ih hw))
    cases call with
    | none => exact hmove a b m ha
    -- what happens during a call is an evolution of its own, which starts in the middle of the deed
    | some c => exact during c b (hcall a c b m ha)

/-- What every move keeps and does not depend on notes is kept by evolution. -/
theorem invariant {I : World σ → Prop} (hmove : ∀ a call b, Move a call b → I a → I b)
    (hnote : ∀ c a, I a → I (a.noted note c)) (h : Evolves note w v) : I w → I v :=
  h.keeps (fun a b => hmove a none b) (fun a _ b m ha => hnote _ b (hmove a _ b m ha)) (hnote none)

end World.Evolves

/-! ## Evolution by rules -/

/-- A world evolves by deeds that a rule allows where they are done, and so does each world in which a call is
made during one of them until that call returns. -/
inductive World.EvolvesBy (rule : World σ → Deed → Prop) (note : Notes σ) : World σ → World σ → Prop where
  | still (w : World σ) : EvolvesBy rule note w w
  | deed {w v : World σ} (before : EvolvesBy rule note w v) (deed : Deed) (allowed : rule v deed)
      (react : Reaction σ) (during : ∀ c u, EvolvesBy rule note (u.noted note (some c)) (react c u)) :
      EvolvesBy rule note w ((deed.perform.outcome react v).2.noted note none)

theorem World.EvolvesBy.evolves {rule : World σ → Deed → Prop} {note : Notes σ} {w v : World σ}
    (h : EvolvesBy rule note w v) : Evolves note w v := by
  induction h with
  | still w => exact .still w
  | deed _ deed _ react _ ih hduring => exact .deed ih deed react hduring

/-! ## Diaries -/

def World.bare (w : World σ) : World Unit := { w with embedder := () }

/-- An application that keeps a diary notes each world that it sees, the latest first, with the
call in which it saw it. -/
abbrev Diary := List (Option Call × World Unit)

def Diary.note : Notes Diary := fun c w => (c, w.bare) :: w.embedder

namespace World

/-- The worlds that an application with a diary has seen and the one it is in, the latest first. -/
def seen (w : World Diary) : List (World Unit) := w.bare :: w.embedder.map Prod.snd

theorem seen_noted (w : World Diary) (c : Option Call) : (w.noted Diary.note c).seen = w.bare :: w.seen := rfl

theorem seen_of_move {w v : World Diary} {call : Option Call} (m : Move w call v) :
    v.seen = v.bare :: w.embedder.map Prod.snd := by
  rw [seen, m.frame.2]

/-- What holds at the start and is kept by every move holds in all worlds that are seen. -/
theorem forall_seen {I : World Unit → Prop} (hstart : I { embedder := () })
    (hmove : ∀ {a b : World Diary} {call}, Move a call b → I a.bare → I b.bare) {w : World Diary}
    (h : w.Reached Diary.note []) : ∀ v ∈ w.seen, I v := by
  refine h.invariant (I := fun a => ∀ v ∈ a.seen, I v) (fun a call b m ha => ?_) (fun c a ha => ?_) ?_
  · rw [seen_of_move m]
    exact List.forall_mem_cons.2 ⟨hmove m (List.forall_mem_cons.1 ha).1, (List.forall_mem_cons.1 ha).2⟩
  · rw [seen_noted]
    exact List.forall_mem_cons.2 ⟨(List.forall_mem_cons.1 ha).1, ha⟩
  · exact List.forall_mem_singleton.2 hstart

/-- The world after deeds during which the application does nothing but take notes. -/
def after (note : Notes σ) (deeds : List Deed) (w : World σ) : World σ :=
  deeds.foldl (fun w deed => (deed.perform.outcome (fun c u => u.noted note (some c)) w).2.noted note none) w

theorem evolves_after (note : Notes σ) (deeds : List Deed) {w v : World σ} (h : Evolves note w v) :
    Evolves note w (v.after note deeds) := by
  induction deeds generalizing v with
  | nil => exact h
  | cons deed rest ih => exact ih (.deed h deed _ fun c u => .still _)

theorem evolvesBy_after {rule : World σ → Deed → Prop} (note : Notes σ) (deeds : List Deed)
    (hallowed : ∀ deed ∈ deeds, ∀ u, rule u deed) {w v : World σ} (h : EvolvesBy rule note w v) :
    EvolvesBy rule note w (v.after note deeds) := by
  induction deeds generalizing v with
  | nil => exact h
  | cons deed rest ih =>
    exact ih (fun d hd => hallowed d (List.mem_cons_of_mem _ hd))
      (.deed h deed (hallowed deed List.mem_cons_self v) _ fun c u => .still _)

end World

end SettingsRelay
