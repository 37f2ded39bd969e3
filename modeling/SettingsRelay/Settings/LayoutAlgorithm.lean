/-!
# Page layout algorithms
-/

namespace SettingsRelay

inductive LayoutAlgorithm where
  | normal
  | singleColumn
  | narrowColumns
  | textAutosizing
deriving DecidableEq, Repr

namespace LayoutAlgorithm

instance : Inhabited LayoutAlgorithm := ⟨narrowColumns⟩

def name : LayoutAlgorithm → String
  | normal => "normal"
  | singleColumn => "single_column"
  | narrowColumns => "narrow_columns"
  | textAutosizing => "text_autosizing"

/-- Every algorithm, in the order in which messages list them. -/
def all : List LayoutAlgorithm := [normal, singleColumn, narrowColumns, textAutosizing]

def ofName? (name : String) : Option LayoutAlgorithm := all.find? (·.name = name)

@[simp] theorem ofName?_name (a : LayoutAlgorithm) : ofName? a.name = some a := by
  cases a <;> decide

end LayoutAlgorithm

end SettingsRelay
