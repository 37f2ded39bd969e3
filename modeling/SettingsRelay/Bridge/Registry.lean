import SettingsRelay.World.Operation

/-!
# The registry of bridges

A context knows the bridge that was made last for each session. An entry does not keep its bridge
alive, and it is taken out when that bridge ends.
-/

namespace SettingsRelay

namespace Context

def entered? (c : Context) (id : SessionId) : Option BridgeRef := c.registry.lookup id

/-- The context with a bridge entered for a session, in place of any other. -/
def enter (c : Context) (id : SessionId) (b : BridgeRef) : Context :=
  { c with registry := (id, b) :: c.registry.filter (·.1 ≠ id) }

def strike (c : Context) (id : SessionId) : Context :=
  { c with registry := c.registry.filter (·.1 ≠ id) }

end Context

namespace Registry

variable {σ : Type}

/-- The living bridge of a session, in which the caller is given a share. -/
def find? (c : ContextRef) (id : SessionId) : Op σ (Option BridgeRef) :=
  Op.withLease (.registry c) false do Op.upgrade (((← get).contexts c).entered? id)

/-- The number of entries whose bridge is alive. -/
def size (w : World σ) (c : ContextRef) : Nat :=
  ((w.contexts c).registry.filter fun e => w.isAlive e.2.object).length

def count (c : ContextRef) : Op σ Nat := Op.readCell (.registry c) (size · c)

def register (c : ContextRef) (id : SessionId) (b : BridgeRef) : Op σ Unit :=
  Op.writeCell (.registry c) (·.changeContext c (·.enter id b))

/-- Takes the entry of a session out, unless a newer bridge has it. -/
def unregister (c : ContextRef) (id : SessionId) : Op σ Unit :=
  Op.writeCell (.registry c) fun w =>
    match (w.contexts c).entered? id with
    | some b => if w.isAlive b.object then w else w.changeContext c (·.strike id)
    | none => w

end Registry

end SettingsRelay
