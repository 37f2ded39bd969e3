import SettingsRelay.Embedder.Desk
import SettingsRelay.World.Create

/-!
# Performing steps

A step looks up the objects it names, in the order in which it names them, and does nothing if one
is absent. The bridges, hosts, clients, sessions and contexts that it uses it keeps alive until it
is done. A step that makes or names a bridge keeps nothing alive but that bridge, also while it
releases the bridge that had the name before.
-/

namespace SettingsRelay

namespace Desk

/-- Has a name stand for an object, in which the embedder already has a share, and releases the
object that it stood for before. -/
def rebind (name : String) {kind : ObjectKind} (r : Ref kind) : Op Desk Unit := do
  let old := (← get).embedder.find? kind name
  modify (·.onDesk (·.rename name r))
  match old with
  | some old => Op.release .embedder old.object
  | none => return

def make (name : String) {kind : ObjectKind} (create : Op Desk (Ref kind)) : Op Desk Reply := do
  let r ← create
  modify (·.onDesk fun d => { d with labels := (r.object, name) :: d.labels })
  rebind name r
  return .nothing

def withNamed (kind : ObjectKind) (name : String) (body : Ref kind → Op Desk Reply) :
    Op Desk Reply := do
  match (← get).embedder.find? kind name with
  | some r => body r
  | none => return .absent kind.word name

/-- Runs a step on a named object, and keeps that alive for as long. -/
def withHeld (kind : ObjectKind) (name : String) (body : Ref kind → Op Desk Reply) :
    Op Desk Reply :=
  withNamed kind name fun r => Op.holding r.object (body r)

/-- Runs a step on something that need not be named. -/
def withOptional {α : Type} (name : Option String)
    (lookUp : String → (α → Op Desk Reply) → Op Desk Reply) (body : Option α → Op Desk Reply) :
    Op Desk Reply :=
  match name with
  | some name => lookUp name fun x => body (some x)
  | none => body none

def withMemoryHost (name : String) (body : HostRef → Op Desk Reply) : Op Desk Reply :=
  withHeld .host name fun h => do
    if ((← get).hosts h).isInMemory then body h else return .absent "memory host" name

def withHandle (name : String) (body : HostRef → Op Desk Reply) : Op Desk Reply := do
  match (← get).embedder.handles.lookup name with
  | some h => body h
  | none => return .absent "handle" name

/-- Runs a step on a copy of a named record. -/
def withRecord (name : String) (body : Preferences → Op Desk Reply) : Op Desk Reply := do
  match (← get).embedder.records.lookup name with
  | some p => body p
  | none => return .absent "prefs" name

def withHostName (name : HostName) (body : HostRef → Op Desk Reply) : Op Desk Reply :=
  match name with
  | .host name => withNamed .host name body
  | .handle name => withHandle name body

/-- Fills in a record and puts it back under its name. -/
def populateRecord (name : String) (p : Preferences) (fill : Preferences → Op Desk Preferences) :
    Op Desk Reply := do
  let filled ← fill p
  modify (·.onDesk (·.putRecord name filled))
  return .populated p filled

/-! ## Making objects -/

/-- Makes a session that answers a request to make its preferences anew as its description says.
-/
def createSession (spec : SessionSpec) (client : Option ClientRef) : Op Desk SessionRef := do
  let s ← Session.create
    { id := spec.id
      entries := List.replicate spec.entries false
      hasExtension := spec.hasExtension
      hasViewHost := spec.hasViewHost
      client }
  match spec.refreshes with
  | some names => modify (·.onDesk fun d => { d with refreshes := (s, names) :: d.refreshes })
  | none => pure ()
  return s

def makeBridge (name context session : String) (host : HostName) : Op Desk Reply :=
  withNamed .context context fun c =>
    withNamed .session session fun s =>
      withHostName host fun h => do
        rebind name (← Bridge.create c s h)
        return .nothing

/-! ## Changing objects -/

/-- A list of so many flags, with those that are new unset. -/
def resize (flags : List Bool) (count : Nat) : List Bool :=
  flags.take count ++ List.replicate (count - flags.length) false

def changeSession (name : String) (change : SessionChange) : Op Desk Reply :=
  withHeld .session name fun s =>
    withOptional (change.client.getD none) (withHeld .client) fun client => do
      modify (·.changeSession s fun session =>
        { session with
          hasExtension := change.hasExtension.getD session.hasExtension
          hasViewHost := session.hasViewHost && !change.removesViewHost
          entries := match change.entries with
            | some count => resize session.entries count
            | none => session.entries })
      if change.client.isSome then Session.changeClient s client
      return .nothing

/-- Releases a name, and tells whether it was there. -/
def drop (kind : ObjectKind) (name : String) : Op Desk Reply := do
  match (← get).embedder.find? kind name with
  | some r =>
    modify (·.onDesk (·.forget kind name))
    Op.release .embedder r.object
    return .flag true
  | none => return .flag false

/-! ## Using objects -/

/-- Updates everything through a bridge to a session that passes all on to a named session but has
no autofill client, and tells whether it had one. -/
def plainFormData (context session host : String) : Op Desk Reply :=
  withHeld .context context fun c =>
    withHeld .session session fun s =>
      withNamed .host host fun h => do
        let plain ← Session.create { id := ((← get).sessions s).id, behind := some s }
        let b ← Bridge.create c plain h
        Bridge.updateEverything b
        let hasClient := ((← get).sessions plain).client.isSome
        Op.release .embedder b.object
        modify (·.releaseSession .embedder plain)
        return .flag hasClient

/-- The names of a bridge that was looked up, which is then released. -/
def foundReply (b : Option BridgeRef) : Op Desk Reply := do
  match b with
  | some b =>
    let w ← get
    let reply := Reply.found (some ((w.bridges b).sessionId, w.embedder.namesOf b.object))
    Op.release .call b.object
    return reply
  | none => return .found none

def contextInfo (c : ContextRef) : Op Desk Reply := do
  let count ← Registry.count c
  let w ← get
  let context := w.contexts c
  let languages := context.service.bind fun p => (w.services p).get? acceptLanguagesKey
  return .context context.switches count context.service.isSome languages

def handleInfo (h : HostRef) : Op Desk Reply := do
  if (← get).isAlive h.object then
    return .handle (some (← Op.keeping h.object (Host.readSettings h)))
  else return .handle none

/-- Puts a question to a client, or to one that supports nothing. -/
def ask (client : Option ClientRef) (question : Question) : Op Desk Reply :=
  withOptional question.delegate (withNamed .delegate) fun delegate => do
    let capability := question.capability delegate
    match client with
    | some c => return .capability (← capability.ask c)
    | none => return .capability capability.unsupportedResult

end Desk

open Desk in
def Step.perform : Step → Op Desk Reply
  | makeService name => make name Service.create
  | makeContext name service arguments =>
    withOptional service (withNamed .service) fun service =>
      make name (Context.create ((arguments.map .ofArguments).getD {}) service)
  | makeClient name service =>
    withOptional service (withNamed .service) fun service => make name (Client.create service)
  | makeSession name spec =>
    withOptional spec.client (withHeld .client) fun client =>
      make name (createSession spec client)
  | makeHost name settings => make name (Host.create settings)
  | loadHost name document =>
    match Settings.load document with
    | .ok settings => make name (Host.create settings)
    | .error refusal => return .refused refusal
  | makeCustomHost name settings overrides => make name (Host.createCustom settings overrides)
  | makeHandle name host =>
    withHeld .host host fun h => do
      modify (·.onDesk (·.putHandle name h))
      return .nothing
  | makeView name => make name View.create
  | makeDelegate name => make name Delegate.create
  | makeRecord name preferences => do
    modify (·.onDesk (·.putRecord name preferences))
    return .nothing
  | makeBridge name context session host => Desk.makeBridge name context session host
  | keepAs bridge name =>
    withNamed .bridge bridge fun b => do
      modify (·.acquire .embedder b.object)
      rebind name b
      return .nothing
  | drop kind name => Desk.drop kind name
  | destroy bridge => do
    match (← get).embedder.find? .bridge bridge with
    | some _ =>
      let _ ← Desk.drop .bridge bridge
      return .nothing
    | none => return .absent "bridge" bridge
  | onCall event name steps => do
    modify (·.onDesk fun d => { d with scripts := d.scripts ++ [⟨event, name, steps⟩] })
    return .nothing
  | act bridge action =>
    withHeld .bridge bridge fun b => do
      action.perform b
      return .nothing
  | populate bridge record =>
    withHeld .bridge bridge fun b =>
      withRecord record fun p => populateRecord record p (Bridge.populate b)
  | populateFor session context record =>
    withHeld .session session fun s =>
      withHeld .context context fun c =>
        withRecord record fun p => populateRecord record p (Bridge.populateFor c s)
  | plainFormData context session host => Desk.plainFormData context session host
  | bridgeInfo bridge =>
    withHeld .bridge bridge fun b => do
      let w ← get
      let bridge := w.bridges b
      let sessionAlive := w.isAlive bridge.session.object
      return .bridge bridge.sessionId sessionAlive (w.isAlive bridge.host.object)
  | settingsFor context id =>
    withHeld .context context fun c => do foundReply (← Registry.find? c id)
  | fromSession context session =>
    withHeld .context context fun c =>
      withHeld .session session fun s => do
        foundReply (← Registry.find? c ((← get).sessions s).id)
  | contextInfo context => withHeld .context context Desk.contextInfo
  | changeSession session change => Desk.changeSession session change
  | readRecord record => withRecord record fun p => return .preferences p
  | attach host bridge =>
    withMemoryHost host fun h =>
      withHeld .bridge bridge fun b => do
        Host.attach h b
        return .nothing
  | set host change =>
    withMemoryHost host fun h => do
      Host.set h change
      return .nothing
  | setSettings host settings =>
    withMemoryHost host fun h => do
      match ← Host.setSettings h settings with
      | .ok () => return .done
      | .error refusal => return .refused refusal
  | setCustomSettings host settings =>
    withHeld .host host fun h => do
      if ((← get).hosts h).isInMemory then return .absent "custom host" host
      else
        modify (·.changeHost h (·.withSettings settings))
        return .nothing
  | readSettings host => withHeld .host host fun h => do return .settings (← Host.readSettings h)
  | readAnswers host => withHeld .host host fun h => do return .answers (← Op.readHost h id)
  | writeDocument host =>
    withMemoryHost host fun h => do return .text (← Host.readSettings h).toDocument
  | hasBridge host => withMemoryHost host fun h => do return .flag (← Host.hasBridge h)
  | handleInfo handle => withHandle handle Desk.handleInfo
  | setView client view =>
    withHeld .client client fun c =>
      withNamed .view view fun v => do
        Client.setView c v
        return .nothing
  | setSaveFormData client enabled =>
    withHeld .client client fun c => do
      Client.setSaveFormData c enabled
      return .nothing
  | select client position =>
    withHeld .client client fun c => do
      Client.select c position
      return .nothing
  | clientInfo client =>
    withHeld .client client fun c => do
      let suggestions ← Client.readSuggestions c
      return .client ((← get).clients c).saveFormData suggestions
  | ask client question => withHeld .client client fun c => Desk.ask (some c) question
  | askBare question => Desk.ask none question

end SettingsRelay
