import SettingsRelay.Binary.Arithmetic
import SettingsRelay.Settings.LayoutAlgorithm

/-!
# Host settings

The values that an embedding application configures for a view, and those that follow from them.
-/

namespace SettingsRelay

/-- Everything that an application configures for a view. -/
structure Settings where
  allowScriptsToCloseWindows : Bool := true
  loadsImagesAutomatically : Bool := true
  imagesEnabled : Bool := true
  javascriptEnabled : Bool := true
  allowUniversalAccessFromFileUrls : Bool := false
  allowFileAccessFromFileUrls : Bool := false
  javascriptCanOpenWindowsAutomatically : Bool := true
  supportMultipleWindows : Bool := false
  domStorageEnabled : Bool := true
  databaseEnabled : Bool := false
  useWideViewport : Bool := false
  loadWithOverviewMode : Bool := false
  mediaPlaybackRequiresUserGesture : Bool := true
  defaultVideoPosterUrl : Option String := none
  textSizePercent : Int32 := 100
  defaultFontSize : Int32 := 16
  defaultFixedFontSize : Int32 := 13
  spatialNavigationEnabled : Bool := true
  quirksModeEnabled : Bool := false
  supportZoom : Bool := true
  builtInZoomControls : Bool := false
  layoutAlgorithm : LayoutAlgorithm := .narrowColumns
  appCacheEnabled : Bool := true
  appCachePath : Option String := none
  passwordEchoEnabled : Bool := true
  acceptLanguages : String := "en-US,en"
  userAgent : Option String := none
  initialPageScalePercent : Single := .zero false
  dipScale : Double := .ofNat 1
  saveFormData : Bool := true
deriving DecidableEq

namespace Settings

instance : Inhabited Settings := ⟨{}⟩

/-- The application cache works only once it has a path. -/
def appCacheEffective (s : Settings) : Bool := s.appCacheEnabled && s.appCachePath.isSome

/-- A double tap zooms if zooming, its controls and the wide viewport are all on. -/
def supportsDoubleTapZoom (s : Settings) : Bool :=
  s.supportZoom && s.builtInZoomControls && s.useWideViewport

def textAutosizingEnabled (s : Settings) : Bool := s.layoutAlgorithm = .textAutosizing

end Settings

end SettingsRelay
