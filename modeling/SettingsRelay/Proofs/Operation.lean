import SettingsRelay.Proofs.Move

/-!
# Operations as moves

Every operation leads from the world that it starts in to the world that it leaves by moves, with
calls between them, whatever these calls are reacted to. Each operation has one lemma for this, and
operations that use others cite theirs.
-/

namespace SettingsRelay

variable {σ : Type} {α β : Type}

open World (Carry Move Leads)

namespace Op

/-- An operation that is carried out in a world gets on by moves of one sort and by calls. -/
def MovesFrom (M : Moving σ) (w : World σ) (op : Op σ α) : Prop :=
  ∀ react, Leads M react w (op.outcome react w).2

def Moves (M : Moving σ) (op : Op σ α) : Prop := ∀ w, op.MovesFrom M w

variable {M N : Moving σ} {w : World σ}

/-! ## How operations are put together -/

theorem MovesFrom.mono {op : Op σ α} (hMN : ∀ a call b, M a call b → N a call b) (h : op.MovesFrom M w) :
    op.MovesFrom N w := fun react => (h react).mono hMN

theorem Moves.mono {op : Op σ α} (hMN : ∀ a call b, M a call b → N a call b) (h : op.Moves M) : op.Moves N :=
  fun w => (h w).mono hMN

theorem moves_pure (x : α) : (pure x : Op σ α).Moves M := fun _ _ => .start

theorem movesFrom_modify {f : World σ → World σ} (m : M w none (f w)) :
    (modify f : Op σ Unit).MovesFrom M w := fun _ => .of_move m

theorem MovesFrom.bind {op : Op σ α} {next : α → Op σ β} (h : op.MovesFrom M w)
    (hnext : ∀ x, (next x).Moves M) : (op >>= next).MovesFrom M w := by
  intro react
  rw [outcome_bind]
  exact (h react).trans (hnext _ _ react)

theorem Moves.bind {op : Op σ α} {next : α → Op σ β} (h : op.Moves M)
    (hnext : ∀ x, (next x).Moves M) : (op >>= next).Moves M := fun w => (h w).bind hnext

theorem movesFrom_modify_bind {f : World σ → World σ} {next : Unit → Op σ α} (m : M w none (f w))
    (hnext : (next ()).MovesFrom M (f w)) : ((modify f : Op σ Unit) >>= next).MovesFrom M w :=
  fun react => (Leads.of_move m).trans (hnext react)

theorem movesFrom_get_bind {next : World σ → Op σ α} (h : (next w).MovesFrom M w) :
    (get >>= next).MovesFrom M w := h

/-! ## Cells and shares -/

section Carrying

variable (hcarry : ∀ a call b, Carry a call b → M a call b)

include hcarry

theorem moves_call {c : Call} (hc : c.isFarewell = false) : (call c : Op σ Unit).Moves M :=
  fun w _ => .of_call (hcarry _ _ _ (.call w c hc))

theorem moves_readCell (cell : Cell) (f : World σ → α) : (readCell cell f).Moves M := by
  intro w react
  rw [outcome_readCell]
  exact .of_move (hcarry _ _ _ (.lease w _))

theorem moves_readHost (h : HostRef) (f : Host → α) : (readHost h f).Moves M := by
  intro w
  refine movesFrom_get_bind ?_
  split
  · exact moves_readCell hcarry _ _ w
  · exact moves_pure _ w

theorem movesFrom_keeping {o : Object} {body : Op σ α} (halive : w.isAlive o = true ∨ o.kind = .service)
    (hkind : o.kind ≠ .bridge) (hbody : body.MovesFrom M (w.acquire .call o)) :
    (keeping o body).MovesFrom M w := by
  refine movesFrom_modify_bind (hcarry _ _ _ (.hold w o halive)) ?_
  refine hbody.bind fun x v => ?_
  exact movesFrom_modify_bind (hcarry _ _ _ (.letGo v o hkind)) (moves_pure x _)

theorem moves_upgradeIn {kind : ObjectKind} (cell : Cell) (g : World σ → Option (Ref kind))
    (hg : ∀ w l, g (w.openLease l) = g w) :
    (withLease cell false do upgrade (g (← get))).Moves M := by
  intro w react
  rw [outcome_upgradeIn react w cell g (hg w)]
  refine (Leads.of_move (hcarry _ _ _ (.lease w ⟨cell, false⟩))).trans ?_
  cases hr : g w with
  | none => exact .start
  | some r =>
    by_cases halive : w.isAlive r.object = true
    · rw [World.living?_of_alive halive]
      exact .of_move (hcarry _ _ _ (.hold _ _ (.inl halive)))
    · rw [World.living?_of_dead (eq_false_of_ne_true halive)]
      exact .start

end Carrying

theorem movesFrom_writeCell {cell : Cell} {f : World σ → World σ} (hcarry : ∀ a call b, Carry a call b → M a call b)
    (hf : ∀ w l, f (w.openLease l) = (f w).openLease l) (m : M w none (f w)) :
    (writeCell cell f).MovesFrom M w := by
  intro react
  rw [outcome_writeCell react w cell f (hf w)]
  exact .move (.of_move m) (hcarry _ _ _ (.lease _ _))

end Op

/-! ## What an engine does -/

theorem Session.moves_overrideUserAgent (s : SessionRef) (agent : String) :
    (overrideUserAgent s agent : Op σ Unit).Moves Carry := fun w =>
  Op.movesFrom_modify_bind (.agent w s agent) (Op.moves_call (fun _ _ _ h => h) rfl _)

theorem Session.moves_markEntry (s : SessionRef) (index : Nat) (overriding : Bool) :
    (markEntry s index overriding : Op σ Unit).Moves Carry := fun w =>
  Op.movesFrom_modify_bind (.entry w s index overriding) (Op.moves_call (fun _ _ _ h => h) rfl _)

theorem Session.moves_markEntries (s : SessionRef) (overriding : Bool) (indices : List Nat) :
    (markEntries s overriding indices : Op σ Unit).Moves Carry := by
  induction indices with
  | nil => exact Op.moves_pure ()
  | cons index rest ih => exact (moves_markEntry s index overriding).bind fun _ => ih

theorem Service.moves_store (p : ServiceRef) (key value : String) :
    (store p key value : Op σ Unit).Moves Move := fun w =>
  Op.movesFrom_modify_bind (.store w p key value) (Op.moves_call (fun _ _ _ => .carry) rfl _)

theorem Client.moves_setSaveFormData (c : ClientRef) (enabled : Bool) :
    (setSaveFormData c enabled : Op σ Unit).Moves Carry := fun w =>
  Op.movesFrom_modify (.saveFormData w c enabled)

/-! ## What a bridge does -/

namespace Bridge

variable {M : Moving σ} (b : BridgeRef) (h : HostRef)

theorem moves_withHost (hcarry : ∀ a call b, Carry a call b → M a call b) {body : HostRef → Op σ Unit}
    (hbody : ∀ h, (body h).Moves M) : (withHost b body).Moves M := by
  intro w
  refine Op.movesFrom_get_bind (Op.movesFrom_get_bind ?_)
  split
  · next halive => exact Op.movesFrom_keeping hcarry (.inl halive) (by simp [Ref.object]) (hbody _ _)
  · exact Op.moves_pure () w

theorem moves_ifHosted {body : Op σ Unit} (hbody : body.Moves M) : (ifHosted b body).Moves M := by
  intro w
  refine Op.movesFrom_get_bind (Op.movesFrom_get_bind ?_)
  split
  · exact hbody w
  · exact Op.moves_pure () w

theorem moves_withSession {body : SessionRef → Op σ Unit} (hbody : ∀ s, (body s).Moves Carry) :
    (withSession b body).Moves Carry := by
  intro w
  refine Op.movesFrom_get_bind (Op.movesFrom_get_bind ?_)
  split
  · next halive =>
    exact Op.movesFrom_keeping (fun _ _ _ => id) (.inl halive) (by simp [Ref.object]) (hbody _ _)
  · exact Op.moves_pure () w

theorem moves_pushPageScale : (pushPageScale b h : Op σ Unit).Moves Carry := by
  intro w
  refine Op.movesFrom_get_bind ?_
  split
  · exact ((Op.moves_readHost (fun _ _ _ => id) _ _).bind fun _ => Op.moves_call (fun _ _ _ => id) rfl) w
  · exact Op.moves_pure () w

theorem moves_pushPreferences : (pushPreferences b : Op σ Unit).Moves Carry := by
  refine moves_withSession b fun s w => ?_
  refine Op.movesFrom_get_bind ?_
  dsimp only
  split
  · exact Op.moves_call (fun _ _ _ => id) rfl w
  · exact Op.moves_pure () w

theorem moves_pushUserAgent : (pushUserAgent b h : Op σ Unit).Moves Carry := by
  refine moves_withSession b fun s w => ?_
  refine Op.movesFrom_get_bind ?_
  refine ((Op.moves_readHost (fun _ _ _ => id) h _).bind fun agent => ?_) w
  have hmark : ∀ receiver overriding, (do
      let count := ((← get).sessions receiver).entries.length
      Session.markEntries receiver overriding (List.range count) : Op σ Unit).Moves Carry :=
    fun receiver overriding v => Op.movesFrom_get_bind (Session.moves_markEntries _ _ _ v)
  cases agent with
  | none => exact hmark _ _
  | some agent => exact (Session.moves_overrideUserAgent _ _).bind fun _ => hmark _ _

theorem moves_pushFormData : (pushFormData b h : Op σ Unit).Moves Carry := by
  intro w
  refine Op.movesFrom_get_bind ?_
  dsimp only
  split
  · split
    · exact ((Op.moves_readHost (fun _ _ _ => id) h _).bind fun _ =>
        Client.moves_setSaveFormData _ _) w
    · exact Op.moves_pure () w
  · exact Op.moves_pure () w

theorem moves_pushAcceptLanguages : (pushAcceptLanguages b h : Op σ Unit).Moves Move := by
  intro w
  refine Op.movesFrom_get_bind ?_
  split
  · refine Op.movesFrom_keeping (fun _ _ _ => .carry) (.inr rfl) (by simp [Ref.object]) ?_
    exact ((Op.moves_readHost (fun _ _ _ => .carry) h _).bind fun _ => Service.moves_store _ _ _) _
  · exact Op.moves_pure () w

theorem moves_updatePageScale : (updatePageScale b : Op σ Unit).Moves Carry :=
  moves_withHost b (fun _ _ _ => id) fun h => moves_pushPageScale b h

theorem moves_updatePreferences : (updatePreferences b : Op σ Unit).Moves Carry :=
  moves_ifHosted b (moves_pushPreferences b)

theorem moves_updateUserAgent : (updateUserAgent b : Op σ Unit).Moves Carry :=
  moves_withHost b (fun _ _ _ => id) fun h => moves_pushUserAgent b h

theorem moves_updateFormData : (updateFormData b : Op σ Unit).Moves Carry :=
  moves_withHost b (fun _ _ _ => id) fun h => moves_pushFormData b h

theorem moves_updateAcceptLanguages : (updateAcceptLanguages b : Op σ Unit).Moves Move :=
  moves_withHost b (fun _ _ _ => .carry) fun h => moves_pushAcceptLanguages b h

theorem moves_updateEverything : (updateEverything b : Op σ Unit).Moves Carry := by
  refine moves_withHost b (fun _ _ _ => id) fun h => ?_
  refine (moves_pushPageScale b h).bind fun _ => ?_
  refine (moves_pushPreferences b).bind fun _ => ?_
  exact (moves_pushUserAgent b h).bind fun _ => moves_pushFormData b h

theorem moves_resetScroll : (resetScroll b : Op σ Unit).Moves Carry := by
  refine moves_ifHosted b fun w => Op.movesFrom_get_bind ?_
  split
  · exact Op.moves_call (fun _ _ _ => id) rfl w
  · exact Op.moves_pure () w

theorem moves_populate (p : Preferences) : (populate b p : Op σ Preferences).Moves Carry := by
  intro w
  refine Op.movesFrom_get_bind (Op.movesFrom_get_bind ?_)
  split
  · next halive =>
    refine Op.movesFrom_keeping (fun _ _ _ => id) (.inl halive) (by simp [Ref.object]) ?_
    refine Op.movesFrom_get_bind ?_
    split
    · refine (Op.moves_readHost (fun _ _ _ => id) _ _).bind (fun host u => ?_) _
      exact Op.movesFrom_get_bind (((Op.moves_call (fun _ _ _ => id) rfl).bind fun _ => Op.moves_pure _) u)
    · exact Op.moves_pure _ _
  · exact Op.moves_pure _ w

end Bridge

end SettingsRelay
