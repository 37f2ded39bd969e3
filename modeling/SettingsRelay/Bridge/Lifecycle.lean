import SettingsRelay.Bridge.Registry

/-!
# The life of a bridge

A bridge lives as long as somebody has a share in it. When the last share is released the bridge
is torn down: it leaves the registry, its host is told if it is still alive, and the bridge lets
go of its context. Telling the host may run any operations, such as making a new bridge for the
same session.
-/

namespace SettingsRelay

variable {σ : Type} {α : Type}

/-- Tells a host that a bridge has ended. A host in memory forgets its attached bridge if that is
the one or is gone as well. -/
def Host.bridgeGone (h : HostRef) (b : BridgeRef) : Op σ Unit := do
  if ((← get).hosts h).isInMemory then
    Op.writeCell (.hostAttached h) fun w =>
      match (w.hosts h).attached with
      | some a =>
        if w.isAlive a.object && a ≠ b then w else w.changeHost h (·.withAttached none)
      | none => w
  else Op.call (.bridgeGone h b ((← get).bridges b).sessionId)

namespace Bridge

/-- Tears down a bridge in which nobody has a share. -/
def teardown (b : BridgeRef) : Op σ Unit := do
  let bridge := (← get).bridges b
  Registry.unregister bridge.context bridge.sessionId
  if (← get).isAlive bridge.host.object then
    modify fun w => { w with farewells := w.farewells ++ [⟨b, some bridge.host⟩] }
    Op.keeping bridge.host.object (Host.bridgeGone bridge.host b)
  else modify fun w => { w with farewells := w.farewells ++ [⟨b, none⟩] }
  modify (·.releaseContext (.owner b.object) bridge.context)

end Bridge

namespace Op

/-- Releases an object, which tears it down if it is a bridge and nobody else has a share in it.
-/
def release (holder : Holder) (o : Object) : Op σ Unit := do
  if o.kind = .bridge then
    if ⟨holder, o⟩ ∈ (← get).shares then
      modify (·.withdraw holder o)
      if !(← get).isAlive o then Bridge.teardown ⟨o.index⟩
  else modify (·.releaseQuietly holder o)

/-- Runs an operation and keeps an object alive for as long. -/
def holding (o : Object) (body : Op σ α) : Op σ α := do
  modify (·.acquire .call o)
  let x ← body
  release .call o
  return x

end Op

namespace Bridge

/-- Makes a bridge that carries the settings of a host to a session, and enters it in the context.
The caller is given a share in it. -/
def create (context : ContextRef) (session : SessionRef) (host : HostRef) : Op σ BridgeRef := do
  let id := ((← get).sessions session).id
  let b : BridgeRef ← Op.create fun r w =>
    { w with
      bridges := replaceAt w.bridges r ⟨context, id, session, host⟩
      made := r :: w.made }.acquire (.owner r.object) context.object
  Registry.register context id b
  return b

end Bridge

end SettingsRelay
