import SettingsRelay.Engine.Basic

/-!
# The autofill client

A client shows suggestions in a popup, remembers them, and passes on which of them is taken. It is
not the client that keeps the view and the delegate alive.
-/

namespace SettingsRelay

inductive TextDirection where
  | unknown
  | leftToRight
  | rightToLeft
deriving DecidableEq, Repr

namespace Client

variable {σ : Type}

/-- Runs an operation on the view that popups are drawn in, if it is alive. -/
def withView (c : ClientRef) (body : ViewRef → Op σ Unit) : Op σ Unit := do
  let view ← Op.withLease (.clientView c) false do Op.upgrade ((← get).clients c).view
  match view with
  | some v =>
    body v
    modify (·.releaseQuietly .call v.object)
  | none => return

def setView (c : ClientRef) (v : ViewRef) : Op σ Unit :=
  Op.writeCell (.clientView c) (·.changeClient c fun client => { client with view := some v })

def setSaveFormData (c : ClientRef) (enabled : Bool) : Op σ Unit :=
  modify (·.changeClient c fun client => { client with saveFormData := enabled })

def readSuggestions (c : ClientRef) : Op σ (List Suggestion) :=
  Op.readCell (.clientSuggestions c) fun w => (w.clients c).suggestions

/-- Shows a popup. Suggestions and delegate are remembered also if there is no view to draw them.
-/
def showPopup (c : ClientRef) (bounds : Rect) (direction : TextDirection)
    (suggestions : List Suggestion) (delegate : Option DelegateRef) : Op σ Unit := do
  Op.writeCell (.clientSuggestions c)
    (·.changeClient c fun client => { client with suggestions })
  Op.writeCell (.clientDelegate c) (·.changeClient c fun client => { client with delegate })
  withView c fun v =>
    Op.call (.showPopup v bounds (direction = .rightToLeft) suggestions)

/-- Hides the popup. From here on no suggestion can be taken. -/
def hidePopup (c : ClientRef) : Op σ Unit := do
  Op.writeCell (.clientDelegate c)
    (·.changeClient c fun client => { client with delegate := none })
  withView c fun v => Op.call (.hidePopup v)

/-- Tells the delegate of the popup, if it is alive, that the suggestion at a position is taken.
-/
def select (c : ClientRef) (position : Nat) : Op σ Unit := do
  let delegate ← Op.withLease (.clientDelegate c) false do Op.upgrade ((← get).clients c).delegate
  match delegate with
  | some d =>
    let suggestion ← Op.readCell (.clientSuggestions c) fun w =>
      (w.clients c).suggestions[position]?
    match suggestion with
    | some s => Op.call (.accept d s.value s.frontendId position)
    | none => pure ()
    modify (·.releaseQuietly .call d.object)
  | none => return

end Client

end SettingsRelay
