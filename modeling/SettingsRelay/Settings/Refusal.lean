import SettingsRelay.Settings.Fields
import SettingsRelay.Settings.Validation

/-!
# Refused settings

Why settings, or command line arguments, were not taken.
-/

namespace SettingsRelay

inductive Refusal where
  /-- A setting is out of its range. -/
  | invalidSetting (violation : Violation)
  /-- An argument with dashes is not a known switch. -/
  | unknownSwitch (argument : String)
  /-- A document could not be read. -/
  | document (fault : Fault)
deriving DecidableEq

def Refusal.message : Refusal → String
  | invalidSetting v => s!"Invalid setting `{v.field}`: {v.reason}"
  | unknownSwitch argument => s!"Unknown runtime switch: {argument}"
  | document fault => s!"Serialization error: {fault.cause.message}"

namespace Settings

/-- The settings themselves, if all are within their ranges. -/
def validated (s : Settings) : Except Refusal Settings :=
  match s.validate with
  | .ok () => .ok s
  | .error violation => .error (.invalidSetting violation)

def load (text : String) : Except Refusal Settings :=
  match parse text with
  | .ok s => s.validated
  | .error fault => .error (.document fault)

end Settings

end SettingsRelay
