import SettingsRelay.Autofill.Suggestion
import SettingsRelay.Host.Basic
import SettingsRelay.Switches

/-!
# Objects

The objects that an application and an engine share, and what each of them holds. A reference that
keeps its target alive is an entry among the shares of the world. The references in the objects
themselves only name their targets, which may be gone by the time they are followed.
-/

namespace SettingsRelay

structure Service where
  entries : List (String × String) := []

namespace Service

def get? (s : Service) (key : String) : Option String := s.entries.lookup key

/-- The service with a string under a key, in place of any other there. -/
def put (s : Service) (key value : String) : Service :=
  ⟨(key, value) :: s.entries.filter (·.1 ≠ key)⟩

@[simp] theorem get?_put (s : Service) (key value k : String) :
    (s.put key value).get? k = if k = key then some value else s.get? k := by
  by_cases h : k = key
  · simp [get?, put, h]
  · have hk : (k == key) = false := by simp [h]
    simp only [get?, put, List.lookup_cons, hk, h, if_false]
    induction s.entries with
    | nil => rfl
    | cons e rest ih =>
      obtain ⟨a, v⟩ := e
      by_cases ha : a = key
      · have hne : (k == a) = false := by simp [ha, h]
        rw [List.filter_cons_of_neg (by simp [ha]), ih, List.lookup_cons, hne]
      · rw [List.filter_cons_of_pos (by simp [ha]), List.lookup_cons, List.lookup_cons, ih]

end Service

/-- What the sessions of one application have in common. -/
structure Context where
  switches : Switches := {}
  service : Option ServiceRef := none
  /-- The bridge that was made last for each session, until it ends. -/
  registry : List (SessionId × BridgeRef) := []

/-- Fills in forms for a session. -/
structure Client where
  saveFormData : Bool := false
  service : Option ServiceRef := none
  /-- Where popups are drawn. -/
  view : Option ViewRef := none
  suggestions : List Suggestion := []
  /-- Who is told which of them is taken. -/
  delegate : Option DelegateRef := none

/-- A session of the engine: a single web view. -/
structure Session where
  id : SessionId
  /-- The user agent it was given last. -/
  userAgent : Option String := none
  /-- For each navigation entry, whether it was loaded with that user agent. -/
  entries : List Bool := []
  /-- Whether its render view has the relay's extension, which zooms, scales and scrolls. -/
  hasExtension : Bool := true
  /-- Whether it has a render view host, which applies preferences. -/
  hasViewHost : Bool := true
  client : Option ClientRef := none
  /-- The session that stands behind this one and receives all that is asked of it. -/
  behind : Option SessionRef := none

/-- Carries the settings of a host to a session. Neither is kept alive by it; its context is. -/
structure Bridge where
  context : ContextRef
  sessionId : SessionId
  session : SessionRef
  host : HostRef

end SettingsRelay
