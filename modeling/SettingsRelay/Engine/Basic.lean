import SettingsRelay.World.Operation

/-!
# The engine's side

What the engine does when it is asked something: it takes the change up, and then reacts.
-/

namespace SettingsRelay

variable {σ : Type}

namespace Session

def overrideUserAgent (s : SessionRef) (agent : String) : Op σ Unit := do
  modify (·.changeSession s fun session => { session with userAgent := some agent })
  Op.call (.userAgent s agent)

/-- Marks a navigation entry, if there is one with that index. -/
def markEntry (s : SessionRef) (index : Nat) (overriding : Bool) : Op σ Unit := do
  modify (·.changeSession s fun session =>
    { session with entries := session.entries.set index overriding })
  Op.call (.entry s index overriding)

def markEntries (s : SessionRef) (overriding : Bool) : List Nat → Op σ Unit
  | [] => return
  | index :: rest => do
    markEntry s index overriding
    markEntries s overriding rest

end Session

namespace Service

def store (p : ServiceRef) (key value : String) : Op σ Unit := do
  modify (·.changeService p (·.put key value))
  Op.call (.stored p key value)

end Service

end SettingsRelay
