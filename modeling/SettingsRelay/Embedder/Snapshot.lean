import SettingsRelay.Embedder.Desk

/-!
# Snapshots

What an embedder sees of its named objects between steps.
-/

namespace SettingsRelay

structure Snapshot where
  /-- Contexts, with the numbers of their living bridges. -/
  contexts : List (String × Nat)
  /-- Sessions, with their user agents and navigation entries. -/
  sessions : List (String × Option String × List Bool)
  /-- Hosts, with whether those in memory have a living bridge attached. -/
  hosts : List (String × Option Bool)
  /-- Clients, with whether they save form data and how many suggestions they remember. -/
  clients : List (String × Bool × Nat)
  services : List (String × List (String × String))
  bridges : List String

namespace World

def snapshot (w : World Desk) : Snapshot :=
  let named (kind : ObjectKind) : List (String × Ref kind) :=
    (w.embedder.names.filter (·.kind = kind)).map fun n => (n.name, ⟨n.index⟩)
  { contexts := (named .context).map fun (name, c) => (name, Registry.size w c)
    sessions := (named .session).map fun (name, s) =>
      (name, (w.sessions s).userAgent, (w.sessions s).entries)
    hosts := (named .host).map fun (name, h) =>
      (name, if (w.hosts h).isInMemory then some (Host.isBridged w h) else none)
    clients := (named .client).map fun (name, c) =>
      (name, (w.clients c).saveFormData, (w.clients c).suggestions.length)
    services := (named .service).map fun (name, p) => (name, (w.services p).entries)
    bridges := ((named .bridge).map (·.1)).mergeSort fun a b => decide (a ≤ b) }

end World

end SettingsRelay
