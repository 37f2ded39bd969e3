import SettingsRelay.Host.Basic
import SettingsRelay.Preferences.Basic
import SettingsRelay.Preferences.Zoom
import SettingsRelay.Switches

/-!
# Preferences from settings

How an engine's preferences follow from a host's settings, the host's own answers and the runtime
switches. Only the font scale factor may keep what it was before.
-/

namespace SettingsRelay

def Host.textZoom (h : Host) : TextZoom :=
  .ofPercent h.settings.textSizePercent h.textAutosizingEnabled

/-- The preferences `p` after a host's settings. What an engine calls enabled images is what
settings call loading them automatically, and the other way round. -/
def Preferences.populated (p : Preferences) (h : Host) (switches : Switches) : Preferences :=
  let s := h.settings
  let zoom := h.textZoom
  { p.pinned with
    allowScriptsToCloseWindows := s.allowScriptsToCloseWindows
    imagesEnabled := s.loadsImagesAutomatically
    loadsImagesAutomatically := s.imagesEnabled
    javascriptEnabled := s.javascriptEnabled
    allowUniversalAccessFromFileUrls := s.allowUniversalAccessFromFileUrls
    allowFileAccessFromFileUrls := s.allowFileAccessFromFileUrls
    javascriptCanOpenWindowsAutomatically := s.javascriptCanOpenWindowsAutomatically
    supportsMultipleWindows := s.supportMultipleWindows
    applicationCacheEnabled := h.appCacheEnabled
    localStorageEnabled := s.domStorageEnabled
    databasesEnabled := s.databaseEnabled
    initializeAtMinimumPageScale := s.loadWithOverviewMode
    useWideViewport := s.useWideViewport
    userGestureRequiredForMediaPlayback := s.mediaPlaybackRequiresUserGesture
    passwordEchoEnabled := h.passwordEchoEnabled
    doubleTapToZoomEnabled := h.supportsDoubleTapZoom
    spatialNavigationEnabled := s.spatialNavigationEnabled
    allowRunningInsecureContent := switches.allowRunningInsecureContent
    allowDisplayingInsecureContent := !switches.noDisplayingInsecureContent
    defaultVideoPosterUrl := s.defaultVideoPosterUrl
    textAutosizingEnabled := h.textAutosizingEnabled
    fontScaleFactor := zoom.fontScaleFactor.getD p.fontScaleFactor
    forceEnableZoom := zoom.forceEnableZoom
    defaultFontSize := s.defaultFontSize
    defaultFixedFontSize := s.defaultFixedFontSize
    viewportMetaNonUserScalableQuirk := s.quirksModeEnabled
    clobberUserAgentInitialScaleQuirk := s.quirksModeEnabled
    wideViewportQuirk := true }

end SettingsRelay
