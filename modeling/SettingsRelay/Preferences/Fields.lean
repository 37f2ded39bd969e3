import SettingsRelay.Preferences.Basic
import SettingsRelay.Record.Reading

/-!
# Preferences as records

The fields of the preferences, their names and their order in documents.
-/

namespace SettingsRelay.Preferences

/-- The fields of the preferences. A document need not set any of them. -/
def schema : Schema Preferences where
  name := "WebPreferences"
  initial := {}
  required := false
  fields :=
    [⟨"allow_scripts_to_close_windows", .flag, (·.allowScriptsToCloseWindows),
      fun x r => { r with allowScriptsToCloseWindows := x }⟩,
     ⟨"images_enabled", .flag, (·.imagesEnabled), fun x r => { r with imagesEnabled := x }⟩,
     ⟨"loads_images_automatically", .flag, (·.loadsImagesAutomatically),
      fun x r => { r with loadsImagesAutomatically := x }⟩,
     ⟨"javascript_enabled", .flag, (·.javascriptEnabled),
      fun x r => { r with javascriptEnabled := x }⟩,
     ⟨"allow_universal_access_from_file_urls", .flag, (·.allowUniversalAccessFromFileUrls),
      fun x r => { r with allowUniversalAccessFromFileUrls := x }⟩,
     ⟨"allow_file_access_from_file_urls", .flag, (·.allowFileAccessFromFileUrls),
      fun x r => { r with allowFileAccessFromFileUrls := x }⟩,
     ⟨"javascript_can_open_windows_automatically", .flag, (·.javascriptCanOpenWindowsAutomatically),
      fun x r => { r with javascriptCanOpenWindowsAutomatically := x }⟩,
     ⟨"supports_multiple_windows", .flag, (·.supportsMultipleWindows),
      fun x r => { r with supportsMultipleWindows := x }⟩,
     ⟨"application_cache_enabled", .flag, (·.applicationCacheEnabled),
      fun x r => { r with applicationCacheEnabled := x }⟩,
     ⟨"local_storage_enabled", .flag, (·.localStorageEnabled),
      fun x r => { r with localStorageEnabled := x }⟩,
     ⟨"databases_enabled", .flag, (·.databasesEnabled),
      fun x r => { r with databasesEnabled := x }⟩,
     ⟨"initialize_at_minimum_page_scale", .flag, (·.initializeAtMinimumPageScale),
      fun x r => { r with initializeAtMinimumPageScale := x }⟩,
     ⟨"use_wide_viewport", .flag, (·.useWideViewport), fun x r => { r with useWideViewport := x }⟩,
     ⟨"double_tap_to_zoom_enabled", .flag, (·.doubleTapToZoomEnabled),
      fun x r => { r with doubleTapToZoomEnabled := x }⟩,
     ⟨"user_gesture_required_for_media_playback", .flag, (·.userGestureRequiredForMediaPlayback),
      fun x r => { r with userGestureRequiredForMediaPlayback := x }⟩,
     ⟨"password_echo_enabled", .flag, (·.passwordEchoEnabled),
      fun x r => { r with passwordEchoEnabled := x }⟩,
     ⟨"spatial_navigation_enabled", .flag, (·.spatialNavigationEnabled),
      fun x r => { r with spatialNavigationEnabled := x }⟩,
     ⟨"allow_running_insecure_content", .flag, (·.allowRunningInsecureContent),
      fun x r => { r with allowRunningInsecureContent := x }⟩,
     ⟨"allow_displaying_insecure_content", .flag, (·.allowDisplayingInsecureContent),
      fun x r => { r with allowDisplayingInsecureContent := x }⟩,
     ⟨"default_video_poster_url", .optionalText, (·.defaultVideoPosterUrl),
      fun x r => { r with defaultVideoPosterUrl := x }⟩,
     ⟨"text_autosizing_enabled", .flag, (·.textAutosizingEnabled),
      fun x r => { r with textAutosizingEnabled := x }⟩,
     ⟨"font_scale_factor", .single, (·.fontScaleFactor),
      fun x r => { r with fontScaleFactor := x }⟩,
     ⟨"force_enable_zoom", .flag, (·.forceEnableZoom), fun x r => { r with forceEnableZoom := x }⟩,
     ⟨"default_font_size", .integer, (·.defaultFontSize),
      fun x r => { r with defaultFontSize := x }⟩,
     ⟨"default_fixed_font_size", .integer, (·.defaultFixedFontSize),
      fun x r => { r with defaultFixedFontSize := x }⟩,
     ⟨"viewport_meta_non_user_scalable_quirk", .flag, (·.viewportMetaNonUserScalableQuirk),
      fun x r => { r with viewportMetaNonUserScalableQuirk := x }⟩,
     ⟨"clobber_user_agent_initial_scale_quirk", .flag, (·.clobberUserAgentInitialScaleQuirk),
      fun x r => { r with clobberUserAgentInitialScaleQuirk := x }⟩,
     ⟨"wide_viewport_quirk", .flag, (·.wideViewportQuirk),
      fun x r => { r with wideViewportQuirk := x }⟩,
     ⟨"shrinks_standalone_images_to_fit", .flag, (·.shrinksStandaloneImagesToFit),
      fun x r => { r with shrinksStandaloneImagesToFit := x }⟩,
     ⟨"should_clear_document_background", .flag, (·.shouldClearDocumentBackground),
      fun x r => { r with shouldClearDocumentBackground := x }⟩,
     ⟨"viewport_meta_enabled", .flag, (·.viewportMetaEnabled),
      fun x r => { r with viewportMetaEnabled := x }⟩]

/-- Reads preferences from a document. Fields that it does not set keep their defaults. -/
def parse (text : String) : Except Fault Preferences := parseAll schema.read text

def toDocument (p : Preferences) : String := String.ofList (schema.compact p)

def toPrettyDocument (p : Preferences) : String := String.ofList (schema.pretty p)

/-- Equality of preferences, with binary numbers compared as numbers. -/
def equals (a b : Preferences) : Bool := schema.equals a b

end SettingsRelay.Preferences
