import SettingsRelay.Settings.Validation

/-!
# Changes of settings

An application changes settings one by one. Some values are brought into range, some are ignored,
and each setting belongs to one part of what is carried to the engine.
-/

namespace SettingsRelay

/-- The parts that updates carry to an engine. -/
inductive Channel where
  | preferences
  | userAgent
  | pageScale
  | formData
  | acceptLanguages
  | everything
deriving DecidableEq, Repr

inductive Change where
  | javascriptEnabled (enabled : Bool)
  | imagesEnabled (enabled : Bool)
  | loadsImagesAutomatically (enabled : Bool)
  | domStorageEnabled (enabled : Bool)
  | databaseEnabled (enabled : Bool)
  | useWideViewport (enabled : Bool)
  | quirksModeEnabled (enabled : Bool)
  | layoutAlgorithm (layout : LayoutAlgorithm)
  | textZoom (percent : Int32)
  | defaultFontSize (size : Int32)
  | defaultFixedFontSize (size : Int32)
  | userAgent (agent : Option String)
  | initialPageScale (percent : Single)
  | saveFormData (enabled : Bool)
  | acceptLanguages (languages : String)
deriving DecidableEq

namespace Change

/-- The part that a change makes stale. -/
def channel : Change → Channel
  | userAgent _ => .userAgent
  | initialPageScale _ => .pageScale
  | saveFormData _ => .formData
  | acceptLanguages _ => .acceptLanguages
  | _ => .preferences

/-- Whether a change is made. A text zoom has to be positive, and a page scale to be zero or
positive. -/
def isTaken : Change → Bool
  | textZoom percent => 0 < percent
  | initialPageScale percent => Settings.acceptsPageScale percent
  | _ => true

/-- The settings after a change. Font sizes are brought into range, and an empty user agent is
none. -/
def apply : Change → Settings → Settings
  | javascriptEnabled b, s => { s with javascriptEnabled := b }
  | imagesEnabled b, s => { s with imagesEnabled := b }
  | loadsImagesAutomatically b, s => { s with loadsImagesAutomatically := b }
  | domStorageEnabled b, s => { s with domStorageEnabled := b }
  | databaseEnabled b, s => { s with databaseEnabled := b }
  | useWideViewport b, s => { s with useWideViewport := b }
  | quirksModeEnabled b, s => { s with quirksModeEnabled := b }
  | layoutAlgorithm a, s => { s with layoutAlgorithm := a }
  | textZoom percent, s => { s with textSizePercent := percent }
  | defaultFontSize size, s => { s with defaultFontSize := clipFontSize size }
  | defaultFixedFontSize size, s => { s with defaultFixedFontSize := clipFontSize size }
  | userAgent agent, s => { s with userAgent := agent.filter (· ≠ "") }
  | initialPageScale percent, s => { s with initialPageScalePercent := percent }
  | saveFormData b, s => { s with saveFormData := b }
  | acceptLanguages languages, s => { s with acceptLanguages := languages }

end Change

end SettingsRelay
