import SettingsRelay.Binary.Arithmetic

/-!
# Engine preferences

The record that an engine applies to a render view. The engine owns such records, and the relay
writes only into one that it is handed.
-/

namespace SettingsRelay

/-- Everything that an engine asks about how to render a view. -/
structure Preferences where
  allowScriptsToCloseWindows : Bool := false
  imagesEnabled : Bool := true
  loadsImagesAutomatically : Bool := true
  javascriptEnabled : Bool := true
  allowUniversalAccessFromFileUrls : Bool := false
  allowFileAccessFromFileUrls : Bool := false
  javascriptCanOpenWindowsAutomatically : Bool := false
  supportsMultipleWindows : Bool := true
  applicationCacheEnabled : Bool := false
  localStorageEnabled : Bool := false
  databasesEnabled : Bool := false
  initializeAtMinimumPageScale : Bool := true
  useWideViewport : Bool := true
  doubleTapToZoomEnabled : Bool := true
  userGestureRequiredForMediaPlayback : Bool := true
  passwordEchoEnabled : Bool := false
  spatialNavigationEnabled : Bool := false
  allowRunningInsecureContent : Bool := false
  allowDisplayingInsecureContent : Bool := true
  defaultVideoPosterUrl : Option String := none
  textAutosizingEnabled : Bool := true
  fontScaleFactor : Single := .ofNat 1
  forceEnableZoom : Bool := false
  defaultFontSize : Int32 := 16
  defaultFixedFontSize : Int32 := 13
  viewportMetaNonUserScalableQuirk : Bool := false
  clobberUserAgentInitialScaleQuirk : Bool := false
  wideViewportQuirk : Bool := false
  shrinksStandaloneImagesToFit : Bool := true
  shouldClearDocumentBackground : Bool := true
  viewportMetaEnabled : Bool := false
deriving DecidableEq

namespace Preferences

instance : Inhabited Preferences := ⟨{}⟩

/-- The preferences with the three that no setting changes. -/
def pinned (p : Preferences) : Preferences :=
  { p with
    shrinksStandaloneImagesToFit := false
    shouldClearDocumentBackground := false
    viewportMetaEnabled := true }

end Preferences

end SettingsRelay
