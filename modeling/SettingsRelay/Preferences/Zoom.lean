import SettingsRelay.Binary.Arithmetic

/-!
# Text zoom and page scale

How a text size and a page scale, which applications give as percentages, reach an engine. All
arithmetic is in 32-bit binary numbers.
-/

namespace SettingsRelay

/-- The text size from which on pinch zoom is forced while text is autosized. -/
def forceZoomTextSizePercent : Int32 := 130

/-- What a text size percentage means to an engine. -/
structure TextZoom where
  factor : Single
  /-- The font scale of the autosizer, if it is on. -/
  fontScaleFactor : Option Single
  forceEnableZoom : Bool
deriving DecidableEq

def hundred : Single := .ofNat 100

/-- The zoom for a text size. An autosizer scales the text itself, so the view stays as it is. -/
def TextZoom.ofPercent (percent : Int32) (autosizing : Bool) : TextZoom :=
  let scale := .ofInt percent.toInt / hundred
  if autosizing then ⟨.ofNat 1, some scale, forceZoomTextSizePercent ≤ percent⟩
  else ⟨scale, none, false⟩

/-- The page scale that tells an engine to choose one itself. -/
def noInitialPageScale : Single := -.ofNat 1

/-- The page scale for a percentage, of which zero stands for none, and the size of a
device-independent pixel, which is rounded to 32 bits first. -/
def initialPageScale (percent : Single) (dipScale : Double) : Single :=
  if percent.isZero then noInitialPageScale else percent / dipScale.convert / hundred

end SettingsRelay
