import SettingsRelay.Record.Reading

/-!
# Autofill suggestions
-/

namespace SettingsRelay

/-- One entry of an autofill popup. -/
structure Suggestion where
  value : String := ""
  label : String := ""
  icon : String := ""
  frontendId : Int32 := 0
deriving DecidableEq, Repr

namespace Suggestion

/-- The fields of a suggestion. A document has to set all of them. -/
def schema : Schema Suggestion where
  name := "Suggestion"
  initial := {}
  required := true
  fields :=
    [⟨"value", .text, (·.value), fun x r => { r with value := x }⟩,
     ⟨"label", .text, (·.label), fun x r => { r with label := x }⟩,
     ⟨"icon", .text, (·.icon), fun x r => { r with icon := x }⟩,
     ⟨"frontend_id", .integer, (·.frontendId), fun x r => { r with frontendId := x }⟩]

def parse (text : String) : Except Fault Suggestion := parseAll schema.read text

def toDocument (s : Suggestion) : String := String.ofList (schema.compact s)

def withLabel (s : Suggestion) (label : String) : Suggestion := { s with label }

end Suggestion

end SettingsRelay
