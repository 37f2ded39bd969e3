import SettingsRelay.Proofs.Lifecycle

/-!
# Edits of a host in memory

An application edits a host by changing one setting or by replacing all of them. Edits that are
refused or ignored do nothing at all; any other stores new settings first and then has the bridge
that is attached carry one part of them to the engine.
-/

namespace SettingsRelay

variable {σ : Type}

inductive Edit where
  | set (change : Change)
  | replace (settings : Settings)

namespace Edit

def perform (h : HostRef) : Edit → Op σ Unit
  | set change => Host.set h change
  | replace settings => do let _ ← Host.setSettings h settings

def performAll (h : HostRef) : List Edit → Op σ Unit
  | [] => return
  | edit :: rest => do
    edit.perform h
    performAll h rest

def isTaken : Edit → Bool
  | set change => change.isTaken
  | replace settings => settings.validate.isOk

/-- The settings that an edit stores if it is taken. -/
def store : Edit → Settings → Settings
  | set change, s => change.apply s
  | replace settings, _ => settings

def apply (edit : Edit) (s : Settings) : Settings := if edit.isTaken then edit.store s else s

def applyAll (edits : List Edit) (s : Settings) : Settings := edits.foldl (fun s edit => edit.apply s) s

def channel : Edit → Channel
  | set change => change.channel
  | replace _ => .everything

theorem outcome_perform (edit : Edit) (react : Reaction σ) (w : World σ) (h : HostRef) :
    (edit.perform h).outcome react w =
      if edit.isTaken then ((), ((Host.update h edit.channel edit.store).outcome react w).2) else ((), w) := by
  cases edit with
  | set change =>
    change (ite (change.isTaken = true) _ _ : Op σ Unit).outcome react w = _
    rw [Op.outcome_ite]
    rfl
  | replace settings =>
    rw [perform, Host.setSettings, Settings.validated, isTaken]
    cases settings.validate <;> rfl

end Edit

def World.stored (w : World σ) (h : HostRef) (f : Settings → Settings) : World σ :=
  (w.changeHost h fun host => host.withSettings (f host.settings)).leased ⟨.hostSettings h, true⟩

theorem World.hosts_stored (w : World σ) (h : HostRef) (f : Settings → Settings) :
    (w.stored h f).hosts h = (w.hosts h).withSettings (f (w.hosts h).settings) := replaceAt_self _ _ _

theorem World.attached_stored (w : World σ) (h : HostRef) (f : Settings → Settings) :
    ((w.stored h f).hosts h).attached = (w.hosts h).attached := by
  rw [World.hosts_stored, Host.attached_withSettings]

/-- What a host does whose attached bridge is alive: it stores, looks the bridge up, has a part
carried, and gives its share in the bridge back. -/
theorem Host.outcome_update (react : Reaction σ) {w : World σ} {h : HostRef} {b : BridgeRef}
    (channel : Channel) (f : Settings → Settings) (hattached : (w.hosts h).attached = some b)
    (halive : w.isAlive b.object = true) :
    (update h channel f).outcome react w =
      (do Bridge.update channel b; Op.release .call b.object : Op σ Unit).outcome react
        (((w.stored h f).leased ⟨.hostAttached h, false⟩).acquire .call b.object) := by
  have hliving : (w.stored h f).living? ((w.stored h f).hosts h).attached = some b := by
    rw [World.attached_stored, hattached]
    exact World.living?_of_alive halive
  rw [update, Op.outcome_bind, Op.outcome_writeCell react w _ _ fun _ => rfl]
  change (attachedBridge? h >>= _).outcome react (w.stored h f) = _
  rw [Op.outcome_bind, outcome_attachedBridge?, hliving]
  rfl

theorem Host.outcome_update_alone (react : Reaction σ) {w : World σ} {h : HostRef} (channel : Channel)
    (f : Settings → Settings) (hnone : w.living? (w.hosts h).attached = none) :
    (update h channel f).outcome react w = ((), (w.stored h f).leased ⟨.hostAttached h, false⟩) := by
  have hliving : (w.stored h f).living? ((w.stored h f).hosts h).attached = none := by
    rw [World.attached_stored]
    exact hnone
  rw [update, Op.outcome_bind, Op.outcome_writeCell react w _ _ fun _ => rfl]
  change (attachedBridge? h >>= _).outcome react (w.stored h f) = _
  rw [Op.outcome_bind, outcome_attachedBridge?, hliving]
  rfl

end SettingsRelay
