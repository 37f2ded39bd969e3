import SettingsRelay.Bridge.Update
import SettingsRelay.Host.Change
import SettingsRelay.Settings.Refusal

/-!
# Hosts in memory

A host in memory stores a change and then has the bridge that was attached last, if it is alive,
carry the part that changed to the engine.
-/

namespace SettingsRelay

variable {σ : Type}

def Bridge.update (channel : Channel) (b : BridgeRef) : Op σ Unit :=
  match channel with
  | .preferences => updatePreferences b
  | .userAgent => updateUserAgent b
  | .pageScale => updatePageScale b
  | .formData => updateFormData b
  | .acceptLanguages => updateAcceptLanguages b
  | .everything => updateEverything b

namespace Host

def attach (h : HostRef) (b : BridgeRef) : Op σ Unit :=
  Op.writeCell (.hostAttached h) (·.attach h b)

/-- Whether a bridge is attached and alive. -/
def isBridged (w : World σ) (h : HostRef) : Bool :=
  (w.hosts h).attached.any fun b => w.isAlive b.object

/-- Whether the bridge attached last is alive. -/
def hasBridge (h : HostRef) : Op σ Bool := Op.readCell (.hostAttached h) (isBridged · h)

/-- The living bridge that was attached last, in which the caller is given a share. -/
def attachedBridge? (h : HostRef) : Op σ (Option BridgeRef) :=
  Op.withLease (.hostAttached h) false do Op.upgrade ((← get).hosts h).attached

/-- Stores changed settings and has the attached bridge carry a part to the engine. -/
def update (h : HostRef) (channel : Channel) (f : Settings → Settings) : Op σ Unit := do
  Op.writeCell (.hostSettings h) (·.changeHost h fun host => host.withSettings (f host.settings))
  match ← attachedBridge? h with
  | some b =>
    Bridge.update channel b
    Op.release .call b.object
  | none => return

def set (h : HostRef) (change : Change) : Op σ Unit :=
  if change.isTaken then update h change.channel change.apply else return

/-- Replaces all settings, unless one is out of its range. -/
def setSettings (h : HostRef) (s : Settings) : Op σ (Except Refusal Unit) := do
  match s.validated with
  | .ok s =>
    update h .everything fun _ => s
    return .ok ()
  | .error refusal => return .error refusal

def readSettings (h : HostRef) : Op σ Settings := Op.readHost h (·.settings)

end Host

end SettingsRelay
