import SettingsRelay.World.Basic

/-!
# Operations

An operation changes the world and calls the engine and the embedder on its way. A call hands the
whole world over: whoever is called may carry out any operations before returning. The reaction to
calls is therefore a parameter of every operation.
-/

namespace SettingsRelay

structure Rect where
  x : Single
  y : Single
  width : Single
  height : Single
deriving DecidableEq

/-- What is asked of the engine or of the embedder. -/
inductive Call where
  /-- The session is to use a user agent. -/
  | userAgent (s : SessionRef) (agent : String)
  /-- A navigation entry of the session was, or was not, loaded with that user agent. -/
  | entry (s : SessionRef) (index : Nat) (overriding : Bool)
  /-- The session's preferences are to be made anew. -/
  | preferencesChanged (s : SessionRef)
  | textZoom (s : SessionRef) (factor : Single)
  | pageScale (s : SessionRef) (scale : Single)
  | resetScroll (s : SessionRef)
  | stored (p : ServiceRef) (key value : String)
  /-- A host is told that a bridge for a session has ended. -/
  | bridgeGone (h : HostRef) (b : BridgeRef) (id : SessionId)
  | showPopup (v : ViewRef) (bounds : Rect) (rightToLeft : Bool) (suggestions : List Suggestion)
  | hidePopup (v : ViewRef)
  | accept (d : DelegateRef) (value : String) (frontendId : Int32) (position : Nat)
deriving DecidableEq

def Call.target : Call → Object
  | userAgent s _ | entry s _ _ | preferencesChanged s | textZoom s _ | pageScale s _
  | resetScroll s => s.object
  | stored p _ _ => p.object
  | bridgeGone h _ _ => h.object
  | showPopup v _ _ _ | hidePopup v => v.object
  | accept d _ _ _ => d.object

/-- What calls do to the world before they return. -/
abbrev Reaction (σ : Type) := Call → World σ → World σ

/-- A change of the world with calls on its way. -/
abbrev Op (σ : Type) := ReaderT (Reaction σ) (StateM (World σ))

namespace Op

variable {σ : Type} {α : Type}

def call (c : Call) : Op σ Unit := do
  let react ← read
  modify (react c)

/-- Runs an operation with a cell under lease. -/
def withLease (cell : Cell) (exclusive : Bool) (body : Op σ α) : Op σ α := do
  modify (·.openLease ⟨cell, exclusive⟩)
  let x ← body
  modify (·.closeLease ⟨cell, exclusive⟩)
  return x

def readCell (cell : Cell) (f : World σ → α) : Op σ α :=
  withLease cell false do return f (← get)

def writeCell (cell : Cell) (f : World σ → World σ) : Op σ Unit :=
  withLease cell true (modify f)

/-- Reads something of a host. The settings of a host in memory are a cell. -/
def readHost (h : HostRef) (f : Host → α) : Op σ α := do
  if ((← get).hosts h).isInMemory then readCell (.hostSettings h) fun w => f (w.hosts h)
  else return f ((← get).hosts h)

/-- Keeps an object, whose end is noticed by nobody, alive while an operation runs. -/
def keeping (o : Object) (body : Op σ α) : Op σ α := do
  modify (·.acquire .call o)
  let x ← body
  modify (·.releaseQuietly .call o)
  return x

/-- The object of a reference, if it is there and alive. The caller is given a share in it. -/
def upgrade {kind : ObjectKind} (r : Option (Ref kind)) : Op σ (Option (Ref kind)) := do
  match r with
  | some r =>
    if (← get).isAlive r.object then
      modify (·.acquire .call r.object)
      return some r
    else return none
  | none => return none

/-- Makes an object, which `place` puts into the world. The embedder is given a share in it. -/
def create {kind : ObjectKind} (place : Ref kind → World σ → World σ) : Op σ (Ref kind) := do
  let r : Ref kind := ⟨(← get).next⟩
  modify fun w => (place r { w with next := w.next + 1 }).acquire .embedder r.object
  return r

end Op

end SettingsRelay
