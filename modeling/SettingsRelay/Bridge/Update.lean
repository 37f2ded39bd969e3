import SettingsRelay.Autofill.Client
import SettingsRelay.Bridge.Lifecycle
import SettingsRelay.Preferences.Zoom

/-!
# Updates

An update carries one part of a host's settings to the engine. Each looks first whether what it
needs is still alive and does nothing if it is not. What it needs during a call it keeps alive
until the call has returned.
-/

namespace SettingsRelay

/-- The key under which a service has the accepted languages. -/
def acceptLanguagesKey : String := "intl.accept_languages"

namespace Bridge

variable {σ : Type}

/-- The session that zooms and scales for a bridge, if it is alive and its render view can. -/
def extension? (w : World σ) (b : BridgeRef) : Option SessionRef :=
  let s := (w.bridges b).session
  if w.isAlive s.object && (w.sessions (w.receiver s)).hasExtension then some (w.receiver s)
  else none

/-- Runs an operation on the host of a bridge, if it is alive, and keeps it so. -/
def withHost (b : BridgeRef) (body : HostRef → Op σ Unit) : Op σ Unit := do
  let h := ((← get).bridges b).host
  if (← get).isAlive h.object then Op.keeping h.object (body h)

def ifHosted (b : BridgeRef) (body : Op σ Unit) : Op σ Unit := do
  if (← get).isAlive ((← get).bridges b).host.object then body

/-- Runs an operation on the session of a bridge, if it is alive, and keeps it so. -/
def withSession (b : BridgeRef) (body : SessionRef → Op σ Unit) : Op σ Unit := do
  let s := ((← get).bridges b).session
  if (← get).isAlive s.object then Op.keeping s.object (body s)

/-! ## The parts -/

/-- Gives the render view the host's page scale. -/
def pushPageScale (b : BridgeRef) (h : HostRef) : Op σ Unit := do
  match extension? (← get) b with
  | some s =>
    let scale ← Op.readHost h fun host =>
      SettingsRelay.initialPageScale host.initialPageScalePercent host.dipScale
    Op.call (.pageScale s scale)
  | none => return

/-- Asks the engine to make the session's preferences anew. -/
def pushPreferences (b : BridgeRef) : Op σ Unit :=
  withSession b fun s => do
    let w ← get
    let session := w.sessions (w.receiver s)
    if session.hasExtension && session.hasViewHost then
      Op.call (.preferencesChanged (w.receiver s))

/-- Gives the session the host's user agent, if it has one, and marks the session's navigation
entries. -/
def pushUserAgent (b : BridgeRef) (h : HostRef) : Op σ Unit :=
  withSession b fun s => do
    let receiver := (← get).receiver s
    let agent ← Op.readHost h (·.userAgent)
    match agent with
    | some agent => Session.overrideUserAgent receiver agent
    | none => pure ()
    let count := ((← get).sessions receiver).entries.length
    Session.markEntries receiver agent.isSome (List.range count)

def pushFormData (b : BridgeRef) (h : HostRef) : Op σ Unit := do
  let w ← get
  let s := (w.bridges b).session
  if w.isAlive s.object then
    match (w.sessions s).client with
    | some c =>
      let save ← Op.readHost h (·.saveFormData)
      Client.setSaveFormData c save
    | none => return

def pushAcceptLanguages (b : BridgeRef) (h : HostRef) : Op σ Unit := do
  let w ← get
  match (w.contexts (w.bridges b).context).service with
  | some p =>
    Op.keeping p.object do
      let languages ← Op.readHost h (·.acceptLanguages)
      Service.store p acceptLanguagesKey languages
  | none => return

/-! ## The operations -/

def updatePageScale (b : BridgeRef) : Op σ Unit := withHost b (pushPageScale b)

def updatePreferences (b : BridgeRef) : Op σ Unit := ifHosted b (pushPreferences b)

def updateUserAgent (b : BridgeRef) : Op σ Unit := withHost b (pushUserAgent b)

def updateFormData (b : BridgeRef) : Op σ Unit := withHost b (pushFormData b)

def updateAcceptLanguages (b : BridgeRef) : Op σ Unit := withHost b (pushAcceptLanguages b)

/-- Carries the page scale, the preferences, the user agent and the saving of form data to the
engine, in this order and with the host kept alive throughout. -/
def updateEverything (b : BridgeRef) : Op σ Unit :=
  withHost b fun h => do
    pushPageScale b h
    pushPreferences b
    pushUserAgent b h
    pushFormData b h

def renderViewCreated (b : BridgeRef) : Op σ Unit := updateEverything b

/-- Takes the render view back to its initial scroll position and scale. -/
def resetScroll (b : BridgeRef) : Op σ Unit :=
  ifHosted b do
    match extension? (← get) b with
    | some s => Op.call (.resetScroll s)
    | none => return

end Bridge

inductive BridgeAction where
  | updateEverything
  | renderViewCreated
  | updatePageScale
  | updatePreferences
  | updateUserAgent
  | updateFormData
  | updateAcceptLanguages
  | resetScroll
deriving DecidableEq, Repr

def BridgeAction.perform {σ : Type} (action : BridgeAction) (b : BridgeRef) : Op σ Unit :=
  match action with
  | .updateEverything => Bridge.updateEverything b
  | .renderViewCreated => Bridge.renderViewCreated b
  | .updatePageScale => Bridge.updatePageScale b
  | .updatePreferences => Bridge.updatePreferences b
  | .updateUserAgent => Bridge.updateUserAgent b
  | .updateFormData => Bridge.updateFormData b
  | .updateAcceptLanguages => Bridge.updateAcceptLanguages b
  | .resetScroll => Bridge.resetScroll b

end SettingsRelay
