import SettingsRelay.Switches
import SettingsRelay.World.Reference

/-!
# Descriptions

One-line descriptions of objects, for people who look into a running application.
-/

namespace SettingsRelay

/-- A name with the members of an object. `more` stands for members that are not shown. -/
def describe (name : String) (members : List (String × String)) (more : Bool) : String :=
  let shown := members.map fun (key, value) => key ++ ": " ++ value
  let all := if more then shown ++ [".."] else shown
  name ++ " \x7b " ++ ", ".intercalate all ++ " \x7d"

def describeHandle (hostAlive : Bool) : String :=
  describe "HostHandle" [("alive", toString hostAlive)] false

def describeBridge (id : SessionId) (sessionAlive hostAlive : Bool) : String :=
  describe "SettingsBridge"
    [("session_id", "SessionId(" ++ toString id.value.toNat ++ ")"),
     ("session_alive", toString sessionAlive), ("host", describeHandle hostAlive)] true

def describeSwitches (s : Switches) : String :=
  describe "RuntimeSwitches"
    [("allow_running_insecure_content", toString s.allowRunningInsecureContent),
     ("no_displaying_insecure_content", toString s.noDisplayingInsecureContent)] false

def describeContext (s : Switches) (hasService : Bool) (bridges : Nat) : String :=
  describe "BrowserContext"
    [("switches", describeSwitches s), ("has_pref_service", toString hasService),
     ("bridges", toString bridges)] false

def describeClient (saveFormData : Bool) (suggestions : Nat) : String :=
  describe "XWalkAutofillClient"
    [("save_form_data", toString saveFormData), ("suggestions", toString suggestions)] true

end SettingsRelay
