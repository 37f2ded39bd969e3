import SettingsRelay.Record.Reading
import SettingsRelay.Settings.Basic

/-!
# Settings as records

The fields of the settings, their names and their order in documents.
-/

namespace SettingsRelay.Settings

/-- The fields of the settings. A document need not set any of them. -/
def schema : Schema Settings where
  name := "SettingsValues"
  initial := {}
  required := false
  fields :=
    [⟨"allow_scripts_to_close_windows", .flag, (·.allowScriptsToCloseWindows),
      fun x r => { r with allowScriptsToCloseWindows := x }⟩,
     ⟨"loads_images_automatically", .flag, (·.loadsImagesAutomatically),
      fun x r => { r with loadsImagesAutomatically := x }⟩,
     ⟨"images_enabled", .flag, (·.imagesEnabled), fun x r => { r with imagesEnabled := x }⟩,
     ⟨"javascript_enabled", .flag, (·.javascriptEnabled),
      fun x r => { r with javascriptEnabled := x }⟩,
     ⟨"allow_universal_access_from_file_urls", .flag, (·.allowUniversalAccessFromFileUrls),
      fun x r => { r with allowUniversalAccessFromFileUrls := x }⟩,
     ⟨"allow_file_access_from_file_urls", .flag, (·.allowFileAccessFromFileUrls),
      fun x r => { r with allowFileAccessFromFileUrls := x }⟩,
     ⟨"javascript_can_open_windows_automatically", .flag, (·.javascriptCanOpenWindowsAutomatically),
      fun x r => { r with javascriptCanOpenWindowsAutomatically := x }⟩,
     ⟨"support_multiple_windows", .flag, (·.supportMultipleWindows),
      fun x r => { r with supportMultipleWindows := x }⟩,
     ⟨"dom_storage_enabled", .flag, (·.domStorageEnabled),
      fun x r => { r with domStorageEnabled := x }⟩,
     ⟨"database_enabled", .flag, (·.databaseEnabled), fun x r => { r with databaseEnabled := x }⟩,
     ⟨"use_wide_viewport", .flag, (·.useWideViewport), fun x r => { r with useWideViewport := x }⟩,
     ⟨"load_with_overview_mode", .flag, (·.loadWithOverviewMode),
      fun x r => { r with loadWithOverviewMode := x }⟩,
     ⟨"media_playback_requires_user_gesture", .flag, (·.mediaPlaybackRequiresUserGesture),
      fun x r => { r with mediaPlaybackRequiresUserGesture := x }⟩,
     ⟨"default_video_poster_url", .optionalText, (·.defaultVideoPosterUrl),
      fun x r => { r with defaultVideoPosterUrl := x }⟩,
     ⟨"text_size_percent", .integer, (·.textSizePercent),
      fun x r => { r with textSizePercent := x }⟩,
     ⟨"default_font_size", .integer, (·.defaultFontSize),
      fun x r => { r with defaultFontSize := x }⟩,
     ⟨"default_fixed_font_size", .integer, (·.defaultFixedFontSize),
      fun x r => { r with defaultFixedFontSize := x }⟩,
     ⟨"spatial_navigation_enabled", .flag, (·.spatialNavigationEnabled),
      fun x r => { r with spatialNavigationEnabled := x }⟩,
     ⟨"quirks_mode_enabled", .flag, (·.quirksModeEnabled),
      fun x r => { r with quirksModeEnabled := x }⟩,
     ⟨"support_zoom", .flag, (·.supportZoom), fun x r => { r with supportZoom := x }⟩,
     ⟨"built_in_zoom_controls", .flag, (·.builtInZoomControls),
      fun x r => { r with builtInZoomControls := x }⟩,
     ⟨"layout_algorithm", .layout, (·.layoutAlgorithm), fun x r => { r with layoutAlgorithm := x }⟩,
     ⟨"app_cache_enabled", .flag, (·.appCacheEnabled), fun x r => { r with appCacheEnabled := x }⟩,
     ⟨"app_cache_path", .optionalText, (·.appCachePath), fun x r => { r with appCachePath := x }⟩,
     ⟨"password_echo_enabled", .flag, (·.passwordEchoEnabled),
      fun x r => { r with passwordEchoEnabled := x }⟩,
     ⟨"accept_languages", .text, (·.acceptLanguages), fun x r => { r with acceptLanguages := x }⟩,
     ⟨"user_agent", .optionalText, (·.userAgent), fun x r => { r with userAgent := x }⟩,
     ⟨"initial_page_scale_percent", .single, (·.initialPageScalePercent),
      fun x r => { r with initialPageScalePercent := x }⟩,
     ⟨"dip_scale", .double, (·.dipScale), fun x r => { r with dipScale := x }⟩,
     ⟨"save_form_data", .flag, (·.saveFormData), fun x r => { r with saveFormData := x }⟩]

/-- Reads settings from a document. Fields that it does not set keep their defaults. -/
def parse (text : String) : Except Fault Settings := parseAll schema.read text

def toDocument (s : Settings) : String := String.ofList (schema.pretty s)

/-- Equality of settings, with binary numbers compared as numbers. -/
def equals (a b : Settings) : Bool := schema.equals a b

end SettingsRelay.Settings
