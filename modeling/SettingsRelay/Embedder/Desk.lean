import SettingsRelay.Embedder.Step

/-!
# The embedder's desk

What an application keeps for itself: the names of its objects, each of which keeps its object
alive, its records of preferences, the steps it has left for calls, and the events of the current
step.
-/

namespace SettingsRelay

structure Name where
  kind : ObjectKind
  name : String
  index : Nat
deriving DecidableEq, Repr

/-- Steps left for a call of a kind that reaches an object with a name. -/
structure Script where
  event : String
  name : String
  steps : List Step

structure Desk where
  names : List Name := []
  /-- The names of handles. A handle does not keep its host alive. -/
  handles : List (String × HostRef) := []
  records : List (String × Preferences) := []
  /-- The names under which objects were made. -/
  labels : List (Object × String) := []
  /-- How sessions answer a request to make their preferences anew. -/
  refreshes : List (SessionRef × String × String) := []
  scripts : List Script := []
  events : List Event := []

/-- Puts a value under a name, in place of any other. -/
def putNamed {α : Type} (table : List (String × α)) (name : String) (x : α) : List (String × α) :=
  (name, x) :: table.filter (·.1 ≠ name)

namespace Desk

def find? (d : Desk) (kind : ObjectKind) (name : String) : Option (Ref kind) :=
  (d.names.find? fun n => n.kind = kind && n.name = name).map fun n => ⟨n.index⟩

def forget (d : Desk) (kind : ObjectKind) (name : String) : Desk :=
  { d with names := d.names.filter fun n => !(n.kind = kind && n.name = name) }

def rename (d : Desk) (name : String) {kind : ObjectKind} (r : Ref kind) : Desk :=
  let d := d.forget kind name
  { d with names := ⟨kind, name, r.index⟩ :: d.names }

def putHandle (d : Desk) (name : String) (h : HostRef) : Desk :=
  { d with handles := putNamed d.handles name h }

def putRecord (d : Desk) (name : String) (p : Preferences) : Desk :=
  { d with records := putNamed d.records name p }

/-- The name under which an object was made. -/
def label (d : Desk) (o : Object) : String := (d.labels.lookup o).getD ""

def addEvent (d : Desk) (e : Event) : Desk := { d with events := d.events ++ [e] }

/-- The names of an object in alphabetical order. -/
def namesOf (d : Desk) (o : Object) : List String :=
  ((d.names.filter fun n => n.kind = o.kind && n.index = o.index).map (·.name)).mergeSort
    fun a b => decide (a ≤ b)

/-- Takes the steps out that were left first for a call. -/
def takeScript? (d : Desk) (event name : String) : Option (Script × Desk) :=
  match d.scripts.find? fun s => s.event = event && s.name = name with
  | none => none
  | some script =>
    some (script,
      { d with scripts := d.scripts.eraseP fun s => s.event = event && s.name = name })

end Desk

namespace World

def onDesk (w : World Desk) (f : Desk → Desk) : World Desk := { w with embedder := f w.embedder }

end World

end SettingsRelay
