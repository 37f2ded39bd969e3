import SettingsRelay.Decimal.Layout
import SettingsRelay.Document.Fault
import SettingsRelay.Settings.Basic

/-!
# Valid settings

The numbers among the settings have ranges that an engine accepts. Settings are checked in one
order, and the first number out of its range is reported.
-/

namespace SettingsRelay

/-- The smallest and the greatest font size. -/
def minFontSize : Int32 := 1
def maxFontSize : Int32 := 72

/-- The nearest font size within the range. -/
def clipFontSize (size : Int32) : Int32 :=
  if size < minFontSize then minFontSize else if maxFontSize < size then maxFontSize else size

/-- A setting out of its range, with the value found. -/
inductive Violation where
  | defaultFontSize (size : Int32)
  | defaultFixedFontSize (size : Int32)
  | textSizePercent (percent : Int32)
  | initialPageScalePercent (percent : Single)
  | dipScale (scale : Double)
deriving DecidableEq

/-- How messages write numbers: in full, however long that is. -/
def messageLayout : DecimalLayout where
  inPlace := none
  wholeMark := false
  tie := .away
  nanText := "NaN".toList
  infinityText negative := if negative then "-inf".toList else "inf".toList

namespace Violation

def field : Violation → String
  | defaultFontSize _ => "default_font_size"
  | defaultFixedFontSize _ => "default_fixed_font_size"
  | textSizePercent _ => "text_size_percent"
  | initialPageScalePercent _ => "initial_page_scale_percent"
  | dipScale _ => "dip_scale"

/-- The range that the setting is out of, and what was found. -/
def reason : Violation → String
  | defaultFontSize n | defaultFixedFontSize n =>
    s!"must be within {minFontSize.toInt}..={maxFontSize.toInt}, got {n.toInt}"
  | textSizePercent n => s!"must be positive, got {n.toInt}"
  | initialPageScalePercent x =>
    s!"must be zero or a positive percentage, got {String.ofList (messageLayout.text x)}"
  | dipScale x => s!"must be positive, got {String.ofList (messageLayout.text x)}"

end Violation

namespace Settings

/-- What an engine accepts as a font size. -/
def acceptsFontSize (size : Int32) : Bool := minFontSize ≤ size && size ≤ maxFontSize

/-- What an engine accepts as a page scale percentage: zero, of either sign, or a positive number.
-/
def acceptsPageScale (percent : Single) : Bool := percent.isFinite && !percent.isNegative

/-- What an engine accepts as the size of a device-independent pixel: a positive number. -/
def acceptsDipScale (scale : Double) : Bool :=
  scale.isFinite && !scale.isNegative && !scale.isZero

/-- Checks the settings, and gives the first that is out of its range. -/
def validate (s : Settings) : Except Violation Unit :=
  if !acceptsFontSize s.defaultFontSize then .error (.defaultFontSize s.defaultFontSize)
  else if !acceptsFontSize s.defaultFixedFontSize then
    .error (.defaultFixedFontSize s.defaultFixedFontSize)
  else if s.textSizePercent ≤ 0 then .error (.textSizePercent s.textSizePercent)
  else if !acceptsPageScale s.initialPageScalePercent then
    .error (.initialPageScalePercent s.initialPageScalePercent)
  else if !acceptsDipScale s.dipScale then .error (.dipScale s.dipScale)
  else .ok ()

theorem validate_eq_ok_iff {s : Settings} :
    s.validate = .ok () ↔
      acceptsFontSize s.defaultFontSize = true ∧ acceptsFontSize s.defaultFixedFontSize = true ∧
        ¬s.textSizePercent ≤ 0 ∧ acceptsPageScale s.initialPageScalePercent = true ∧
          acceptsDipScale s.dipScale = true := by
  unfold validate
  simp only [Bool.not_eq_true']
  repeat' split
  all_goals simp_all

end Settings

end SettingsRelay
