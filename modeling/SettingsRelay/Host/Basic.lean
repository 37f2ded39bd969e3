import SettingsRelay.Settings.Basic
import SettingsRelay.World.Reference

/-!
# Hosts

A host is where an application keeps its settings. A host in memory is changed through setters; an
application can also bring a host of its own, which may answer some questions otherwise than its
settings would.
-/

namespace SettingsRelay

/-- The answers in which a host departs from its settings. -/
structure Overrides where
  appCacheEnabled : Option Bool := none
  passwordEchoEnabled : Option Bool := none
  supportsDoubleTapZoom : Option Bool := none
  textAutosizingEnabled : Option Bool := none
  acceptLanguages : Option String := none
  userAgent : Option (Option String) := none
  initialPageScalePercent : Option Single := none
  dipScale : Option Double := none
  saveFormData : Option Bool := none

inductive Host where
  /-- A host in memory, with the bridge that was attached to it last. -/
  | memory (settings : Settings) (attached : Option BridgeRef)
  | custom (settings : Settings) (overrides : Overrides)

namespace Host

def settings : Host → Settings
  | memory s _ | custom s _ => s

def overrides : Host → Overrides
  | memory _ _ => {}
  | custom _ o => o

/-- The bridge attached last to a host in memory. -/
def attached : Host → Option BridgeRef
  | memory _ b => b
  | custom _ _ => none

def isInMemory : Host → Bool
  | memory _ _ => true
  | custom _ _ => false

def withSettings (s : Settings) : Host → Host
  | memory _ b => memory s b
  | custom _ o => custom s o

/-- The host with another attached bridge, if it is in memory. -/
def withAttached (b : Option BridgeRef) : Host → Host
  | memory s _ => memory s b
  | custom s o => custom s o

@[simp] theorem attached_withSettings (s : Settings) (h : Host) :
    (h.withSettings s).attached = h.attached := by
  cases h <;> rfl

@[simp] theorem settings_withSettings (s : Settings) (h : Host) : (h.withSettings s).settings = s := by
  cases h <;> rfl

theorem withSettings_self (h : Host) : h.withSettings h.settings = h := by
  cases h <;> rfl

theorem withSettings_withSettings (h : Host) (s t : Settings) :
    (h.withSettings s).withSettings t = h.withSettings t := by
  cases h <;> rfl

@[simp] theorem isInMemory_withSettings (s : Settings) (h : Host) :
    (h.withSettings s).isInMemory = h.isInMemory := by
  cases h <;> rfl

@[simp] theorem isInMemory_withAttached (b : Option BridgeRef) (h : Host) :
    (h.withAttached b).isInMemory = h.isInMemory := by
  cases h <;> rfl

@[simp] theorem settings_withAttached (b : Option BridgeRef) (h : Host) :
    (h.withAttached b).settings = h.settings := by
  cases h <;> rfl

theorem attached_withAttached (b : Option BridgeRef) (h : Host) :
    (h.withAttached b).attached = if h.isInMemory then b else none := by
  cases h <;> rfl

theorem attached_of_custom {h : Host} (hcustom : h.isInMemory = false) : h.attached = none := by
  cases h with
  | memory => cases hcustom
  | custom => rfl

/-! ## Answers to bridges -/

def appCacheEnabled (h : Host) : Bool :=
  h.overrides.appCacheEnabled.getD h.settings.appCacheEffective

def passwordEchoEnabled (h : Host) : Bool :=
  h.overrides.passwordEchoEnabled.getD h.settings.passwordEchoEnabled

def supportsDoubleTapZoom (h : Host) : Bool :=
  h.overrides.supportsDoubleTapZoom.getD h.settings.supportsDoubleTapZoom

def textAutosizingEnabled (h : Host) : Bool :=
  h.overrides.textAutosizingEnabled.getD h.settings.textAutosizingEnabled

def acceptLanguages (h : Host) : String :=
  h.overrides.acceptLanguages.getD h.settings.acceptLanguages

/-- The user agent to use, or none for the engine's own. -/
def userAgent (h : Host) : Option String := h.overrides.userAgent.getD h.settings.userAgent

def initialPageScalePercent (h : Host) : Single :=
  h.overrides.initialPageScalePercent.getD h.settings.initialPageScalePercent

def dipScale (h : Host) : Double := h.overrides.dipScale.getD h.settings.dipScale

def saveFormData (h : Host) : Bool := h.overrides.saveFormData.getD h.settings.saveFormData

end Host

end SettingsRelay
