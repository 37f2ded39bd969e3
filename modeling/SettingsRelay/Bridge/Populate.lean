import SettingsRelay.Bridge.Update
import SettingsRelay.Preferences.Population

/-!
# Population

On an engine's request, a session's bridge fills in the preferences from its host's settings. The
settings are read once, before the one call that the engine receives meanwhile.
-/

namespace SettingsRelay.Bridge

variable {σ : Type}

/-- Fills in preferences, and sets the text zoom of the render view. Without a living host,
session and extension the preferences stay as they are. -/
def populate (b : BridgeRef) (p : Preferences) : Op σ Preferences := do
  let bridge := (← get).bridges b
  if (← get).isAlive bridge.host.object then
    Op.keeping bridge.host.object do
      match extension? (← get) b with
      | some s =>
        let host ← Op.readHost bridge.host id
        let switches := ((← get).contexts bridge.context).switches
        Op.call (.textZoom s host.textZoom.factor)
        return p.populated host switches
      | none => return p
  else return p

/-- Fills in preferences through the bridge that a context has for a session, if it has one. -/
def populateFor (context : ContextRef) (session : SessionRef) (p : Preferences) :
    Op σ Preferences := do
  match ← Registry.find? context ((← get).sessions session).id with
  | some b =>
    let p ← populate b p
    Op.release .call b.object
    return p
  | none => return p

end SettingsRelay.Bridge
