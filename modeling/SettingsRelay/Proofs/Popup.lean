import SettingsRelay.Proofs.Operation

/-!
# Popups as moves

A client stores what it is told before it calls its view or its delegate, which it keeps alive only
during that call.
-/

namespace SettingsRelay

variable {σ : Type}

open World (Carry Move Leads)

namespace Client

variable (c : ClientRef)

theorem moves_withView {body : ViewRef → Op σ Unit} (hbody : ∀ v, (body v).Moves Move) :
    (withView c body).Moves Move := by
  refine (Op.moves_upgradeIn (fun _ _ _ => .carry) (.clientView c) (fun w => (w.clients c).view)
    fun _ _ => rfl).bind fun view => ?_
  cases view with
  | none => exact Op.moves_pure ()
  | some v =>
    refine (hbody v).bind fun _ w => ?_
    exact Op.movesFrom_modify (.carry (.letGo w v.object (by simp [Ref.object])))

theorem moves_setView (v : ViewRef) : (setView c v : Op σ Unit).Moves Move := fun w =>
  Op.movesFrom_writeCell (fun _ _ _ => .carry) (fun _ _ => rfl) (.view w c v)

theorem moves_storeSuggestions (suggestions : List Suggestion) :
    (Op.writeCell (.clientSuggestions c)
      (·.changeClient c fun client => { client with suggestions }) : Op σ Unit).Moves Move := fun w =>
  Op.movesFrom_writeCell (fun _ _ _ => .carry) (fun _ _ => rfl) (.suggestions w c suggestions)

theorem moves_storeDelegate (delegate : Option DelegateRef) :
    (Op.writeCell (.clientDelegate c)
      (·.changeClient c fun client => { client with delegate }) : Op σ Unit).Moves Move := fun w =>
  Op.movesFrom_writeCell (fun _ _ _ => .carry) (fun _ _ => rfl) (.delegate w c delegate)

theorem moves_readSuggestions : (readSuggestions c : Op σ _).Moves Move :=
  Op.moves_readCell (fun _ _ _ => .carry) _ _

theorem moves_showPopup (bounds : Rect) (direction : TextDirection) (suggestions : List Suggestion)
    (delegate : Option DelegateRef) :
    (showPopup c bounds direction suggestions delegate : Op σ Unit).Moves Move := by
  refine (moves_storeSuggestions c suggestions).bind fun _ => ?_
  refine (moves_storeDelegate c delegate).bind fun _ => ?_
  exact moves_withView c fun v => Op.moves_call (fun _ _ _ => .carry) rfl

theorem moves_hidePopup : (hidePopup c : Op σ Unit).Moves Move := by
  refine (moves_storeDelegate c none).bind fun _ => ?_
  exact moves_withView c fun v => Op.moves_call (fun _ _ _ => .carry) rfl

theorem moves_select (position : Nat) : (select c position : Op σ Unit).Moves Move := by
  refine (Op.moves_upgradeIn (fun _ _ _ => .carry) (.clientDelegate c)
    (fun w => (w.clients c).delegate) fun _ _ => rfl).bind fun delegate => ?_
  cases delegate with
  | none => exact Op.moves_pure ()
  | some d =>
    have hletGo : (modify (·.releaseQuietly .call d.object) : Op σ Unit).Moves Move := fun w =>
      Op.movesFrom_modify (.carry (.letGo w d.object (by simp [Ref.object])))
    refine (Op.moves_readCell (fun _ _ _ => .carry) _ _).bind fun suggestion => ?_
    cases suggestion with
    | none => exact hletGo
    | some s => exact (Op.moves_call (fun _ _ _ => .carry) rfl).bind fun _ => hletGo

end Client

theorem Capability.moves_ask (c : ClientRef) (question : Capability) :
    (question.ask c : Op σ _).Moves Move := by
  intro w
  refine Op.movesFrom_get_bind ?_
  dsimp only
  cases question with
  | storeString key value =>
    dsimp only
    split
    · next p _ =>
      refine Op.MovesFrom.bind ?_ fun _ => Op.moves_pure _
      exact Op.movesFrom_keeping (fun _ _ _ => .carry) (.inr rfl) (by simp [Ref.object])
        (Service.moves_store p key value _)
    · exact Op.moves_pure _ w
  | showPopup bounds direction suggestions delegate =>
    exact ((Client.moves_showPopup c _ _ _ _).bind fun _ => Op.moves_pure _) w
  | hidePopup => exact ((Client.moves_hidePopup c).bind fun _ => Op.moves_pure _) w
  | hasService | stringUnder | isAutocompleteEnabled | hasPersonalData | canScanCards | scanCard
  | confirmSaveCard | requestAutocomplete | unsupported => exact Op.moves_pure _ w

end SettingsRelay
