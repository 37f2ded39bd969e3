import SettingsRelay.Autofill.Capability
import SettingsRelay.Bridge.Populate
import SettingsRelay.Host.InMemory

/-!
# Steps of an embedder

An application makes objects, gives them names, and uses them in steps. It can also leave steps to
be carried out later, when a call reaches one of its objects. Each step has an answer: its reply,
and what happened on the way.
-/

namespace SettingsRelay

/-- What a new session is like. Names refer to objects made before. -/
structure SessionSpec where
  id : SessionId
  entries : Nat := 0
  hasExtension : Bool := true
  hasViewHost : Bool := true
  client : Option String := none
  /-- The names of the context and of the record with which the session answers a request to make
  its preferences anew. -/
  refreshes : Option (String × String) := none

structure SessionChange where
  hasExtension : Option Bool := none
  removesViewHost : Bool := false
  entries : Option Nat := none
  client : Option (Option String) := none

/-- The host of a new bridge, by its own name or by that of a handle. -/
inductive HostName where
  | host (name : String)
  | handle (name : String)
deriving DecidableEq, Repr

/-- What form filling is to ask, with the delegate of a popup by its name. -/
structure Question where
  capability : Option DelegateRef → Capability
  delegate : Option String := none

inductive Step where
  /- Making objects. -/
  | makeService (name : String)
  | makeContext (name : String) (service : Option String) (arguments : Option (List String))
  | makeClient (name : String) (service : Option String)
  | makeSession (name : String) (spec : SessionSpec)
  | makeHost (name : String) (settings : Settings)
  | loadHost (name document : String)
  | makeCustomHost (name : String) (settings : Settings) (overrides : Overrides)
  | makeHandle (name host : String)
  | makeView (name : String)
  | makeDelegate (name : String)
  | makeRecord (name : String) (preferences : Preferences)
  | makeBridge (name context session : String) (host : HostName)
  /- Keeping and letting go. -/
  | keepAs (bridge name : String)
  | drop (kind : ObjectKind) (name : String)
  | destroy (bridge : String)
  | onCall (event name : String) (steps : List Step)
  /- Bridges. -/
  | act (bridge : String) (action : BridgeAction)
  | populate (bridge record : String)
  | populateFor (session context record : String)
  | plainFormData (context session host : String)
  | bridgeInfo (bridge : String)
  /- Contexts. -/
  | settingsFor (context : String) (id : SessionId)
  | fromSession (context session : String)
  | contextInfo (context : String)
  /- Sessions and records. -/
  | changeSession (session : String) (change : SessionChange)
  | readRecord (record : String)
  /- Hosts. -/
  | attach (host bridge : String)
  | set (host : String) (change : Change)
  | setSettings (host : String) (settings : Settings)
  | setCustomSettings (host : String) (settings : Settings)
  | readSettings (host : String)
  | readAnswers (host : String)
  | writeDocument (host : String)
  | hasBridge (host : String)
  | handleInfo (handle : String)
  /- Autofill. -/
  | setView (client view : String)
  | setSaveFormData (client : String) (enabled : Bool)
  | select (client : String) (position : Nat)
  | clientInfo (client : String)
  | ask (client : String) (question : Question)
  | askBare (question : Question)

inductive Reply where
  | nothing
  | done
  | flag (b : Bool)
  | text (s : String)
  | absent (what name : String)
  | refused (refusal : Refusal)
  | settings (s : Settings)
  | answers (h : Host)
  | preferences (p : Preferences)
  /-- Preferences before and after they were filled in. -/
  | populated (before after : Preferences)
  /-- A handle: whether its host is alive, and that host's settings. -/
  | handle (settings : Option Settings)
  | bridge (id : SessionId) (sessionAlive hostAlive : Bool)
  /-- A bridge that was looked up, with the names it has. -/
  | found (bridge : Option (SessionId × List String))
  | context (switches : Switches) (bridges : Nat) (hasService : Bool) (languages : Option String)
  | client (saveFormData : Bool) (suggestions : List Suggestion)
  | capability (result : Capability.Result)

/-- What happens during a step: a call of a named object, or steps that were left for such a call,
with their answers. -/
inductive Event where
  | call (name : String) (c : Call)
  | script (event name : String) (answers : List (Reply × List Event))

abbrev Answer := Reply × List Event

/-- How the kinds of calls are named where steps are left for them. -/
def Call.event : Call → String
  | userAgent .. => "user_agent"
  | entry .. => "entry"
  | preferencesChanged _ => "prefs_changed"
  | textZoom .. => "text_zoom"
  | pageScale .. => "page_scale"
  | resetScroll _ => "reset"
  | stored .. => "pref_set"
  | bridgeGone .. => "bridge_gone"
  | showPopup .. => "popup_show"
  | hidePopup _ => "popup_hide"
  | accept .. => "accept"

def ObjectKind.word : ObjectKind → String
  | service => "service"
  | context => "context"
  | client => "client"
  | session => "session"
  | host => "host"
  | bridge => "bridge"
  | view => "view"
  | delegate => "delegate"

mutual

/-- The number of scripts in a step, at any depth. -/
def Step.scripts : Step → Nat
  | .onCall _ _ steps => 1 + stepScripts steps
  | _ => 0

def stepScripts : List Step → Nat
  | [] => 0
  | step :: rest => step.scripts + stepScripts rest

end

end SettingsRelay
